import TargetGen.Json.Records
import TargetGen.Proofs.Json.Text

/-!
# Records in JSON — what is encoded is decoded

An encoding and a decoding belong together if what is encoded is decoded to what it was,
and is a value that its text determines (`Json.Faithful`). Texts and truth values are
such, and so are lists, sets, maps and options of what is. A record is an object of its
fields: each name occurs once, so each field is found under its name.
-/

namespace TargetGen

namespace Json

variable {α β : Type} {encode : α → Json} {decode : Json → Option α}

/-- What is encoded is a value that its text determines, and is decoded to what it was. -/
structure Faithful (encode : α → Json) (decode : Json → Option α) : Prop where
  worded : ∀ a, Worded (encode a)
  decoded : ∀ a, decode (encode a) = some a

/-- What is read from the text of an encoding is what was encoded. -/
def RoundTrips (encode : α → Json) (decode : Json → Option α) : Prop :=
  ∀ a, (read (render (encode a))).bind decode = some a

theorem Faithful.roundTrips (h : Faithful encode decode) : RoundTrips encode decode := by
  intro a
  rw [(h.worded a).read_render]
  exact h.decoded a

/-! ## Lists, sets, maps and options -/

theorem mapM_map {γ : Type} {f : α → β} {g : β → Option γ} {result : α → γ} {items : List α}
    (h : ∀ a ∈ items, g (f a) = some (result a)) :
    (items.map f).mapM g = some (items.map result) := by
  induction items with
  | nil => rfl
  | cons a rest ih =>
    rw [List.forall_mem_cons] at h
    rw [List.map_cons, List.mapM_cons, h.1, ih h.2]
    rfl

theorem mapM_map_of_inverse {f : α → β} {g : β → Option α} (items : List α)
    (h : ∀ a, g (f a) = some a) : (items.map f).mapM g = some items := by
  rw [mapM_map fun a _ => h a, List.map_id']

@[simp] theorem members?_record (fields : List (String × Json)) :
    (record fields).members? = some fields :=
  mapM_map_of_inverse fields fun _ => rfl

namespace Faithful

theorem text : Faithful text text? := ⟨.string, fun _ => rfl⟩

theorem bool : Faithful bool bool? := ⟨.bool, fun _ => rfl⟩

theorem list (h : Faithful encode decode) :
    Faithful (fun items : List α => array (items.map encode)) (list? decode) where
  worded items := .array <| by
    rw [List.forall_mem_map]
    exact fun a _ => h.worded a
  decoded items := mapM_map_of_inverse items h.decoded

theorem names : Faithful names names? where
  worded s := text.list.worded s.names
  decoded s := by
    rw [names?, Json.names, texts, text.list.decoded s.names, Option.map_some, NameSet.ofList_names]

theorem decoded_bindings (h : Faithful encode decode) (entries : List (String × α)) :
    (entries.map fun (name, value) => (name, encode value)).mapM
      (fun (name, json) => (decode json).map (name, ·)) = some entries :=
  mapM_map_of_inverse entries fun entry => by simp [h.decoded entry.2]

theorem map (h : Faithful encode decode) : Faithful (map encode) (map? decode) where
  worded m := .record <| by
    rw [List.forall_mem_map]
    exact fun entry _ => h.worded entry.2
  decoded m := by
    rw [map?, Json.map, members?_record]
    simp only [Option.bind_eq_bind, Option.bind_some, h.decoded_bindings]
    exact congrArg some m.ofList_entries

/-- An option is told apart by `null`, so nothing that is there may be encoded by it. -/
theorem option (h : Faithful encode decode) (hnull : ∀ a, encode a ≠ .null) :
    Faithful (option encode) (nullable decode) where
  worded
    | none => .null
    | some a => h.worded a
  decoded
    | none => rfl
    | some a => by
      have hsome : nullable decode (encode a) = (decode (encode a)).map some := by
        have hne := hnull a
        cases hjson : encode a <;> first | rfl | exact absurd hjson hne
      exact hsome.trans (by rw [h.decoded, Option.map_some])

theorem optionBool : Faithful (Json.option Json.bool) (nullable bool?) :=
  bool.option fun _ => Json.noConfusion

theorem optionText : Faithful (Json.option Json.text) (nullable text?) :=
  text.option fun _ => Json.noConfusion

end Faithful

/-! ## Fields of records -/

theorem filter_name {fields : List (String × Json)} (hnames : (fields.map Prod.fst).Nodup)
    {field : String × Json} (hfield : field ∈ fields) :
    fields.filter (·.1 = field.1) = [field] := by
  induction fields with
  | nil => cases hfield
  | cons first rest ih =>
    rw [List.map_cons, List.nodup_cons] at hnames
    obtain ⟨hfirst, hrest⟩ := hnames
    rcases List.mem_cons.mp hfield with rfl | hfield
    · have hnone : rest.filter (·.1 = field.1) = [] := by
        rw [List.filter_eq_nil_iff]
        intro other hother
        have hne : other.1 ≠ field.1 := fun heq => hfirst (heq ▸ List.mem_map_of_mem hother)
        simpa using hne
      rw [List.filter_cons_of_pos (by simp), hnone]
    · have hne : first.1 ≠ field.1 := fun heq => hfirst (heq ▸ List.mem_map_of_mem hfield)
      rw [List.filter_cons_of_neg (by simpa using hne), ih hrest hfield]

/-- **Every field is found under its name**, which no other field has. -/
theorem fields_record {fields : List (String × Json)} (hnames : (fields.map Prod.fst).Nodup) :
    (record fields).fields (fields.map Prod.fst) = some (fields.map (some ·.2)) := by
  rw [Json.fields, members?_record]
  · refine mapM_map ?_
    intro field hfield
    rw [filter_name hnames hfield]
  · simp [record]

end Json

/-! ## Configuration -/

open Json (Faithful)

theorem DirDefault.faithful : Faithful DirDefault.toJson DirDefault.ofJson where
  worded d := by cases d <;> exact .string _
  decoded d := by cases d <;> decide

theorem BuildMode.faithful : Faithful BuildMode.toJson BuildMode.ofJson where
  worded m := by cases m <;> exact .string _
  decoded m := by cases m <;> decide

theorem Platform.faithful : Faithful Platform.toJson Platform.ofJson where
  worded p := .record <| by simp [Faithful.text.worded]
  decoded p := by
    have hfields : p.toJson.fields ["os", "arch"] = some [some (.text p.os), some (.text p.arch)] :=
      Json.fields_record (show ["os", "arch"].Nodup by decide)
    simp [Platform.ofJson, hfields, Json.required, Faithful.text.decoded]

theorem EdgeExemptions.faithful : Faithful EdgeExemptions.toJson EdgeExemptions.ofJson where
  worded e := .record <| by simp [Faithful.names.worded]
  decoded e := by
    have hfields : e.toJson.fields ["from", "to"] =
        some [some (.names e.sources), some (.names e.targets)] :=
      Json.fields_record (show ["from", "to"].Nodup by decide)
    simp [EdgeExemptions.ofJson, hfields, Json.optional, Faithful.names.decoded]

theorem Allowlist.faithful : Faithful Allowlist.toJson Allowlist.ofJson where
  worded a := .record <| by
    simp [Faithful.names.worded, DirDefault.faithful.map.worded, Faithful.bool.map.worded]
  decoded a := by
    have hfields : a.toJson.fields ["dir_defaults", "module_always_convert",
        "module_type_always_convert", "module_do_not_convert", "keep_existing_build_file",
        "mixed_build_modules"] =
        some [some (.map DirDefault.toJson a.dirDefaults), some (.names a.always),
          some (.names a.alwaysTypes), some (.names a.never), some (.map Json.bool a.kept),
          some (.names a.mixed)] :=
      Json.fields_record (show ["dir_defaults", "module_always_convert",
        "module_type_always_convert", "module_do_not_convert", "keep_existing_build_file",
        "mixed_build_modules"].Nodup by decide)
    simp [Allowlist.ofJson, hfields, Json.optional, Faithful.names.decoded,
      DirDefault.faithful.map.decoded, Faithful.bool.map.decoded]

/-! ## Modules -/

theorem PropertyValue.faithful : Faithful PropertyValue.toJson PropertyValue.ofJson where
  worded
    | bool value => .bool value
    | text value => .string value
    | list items => Faithful.text.list.worded items
  decoded
    | bool _ => rfl
    | text _ => rfl
    | list items => congrArg (Option.map list) (Faithful.text.list.decoded items)

theorem TargetSettings.faithful : Faithful TargetSettings.toJson TargetSettings.ofJson where
  worded s := .record <| by
    simp [Faithful.bool.worded, Faithful.optionBool.worded, Faithful.optionText.worded]
  decoded s := by
    have hfields : s.toJson.fields ["bp2build_available", "label", "api_surface"] =
        some [some (.option Json.bool s.available), some (.option Json.text s.label),
          some (.bool s.apiSurface)] :=
      Json.fields_record (show ["bp2build_available", "label", "api_surface"].Nodup by decide)
    simp [TargetSettings.ofJson, hfields, Json.optional, Faithful.bool.decoded,
      Faithful.optionBool.decoded, Faithful.optionText.decoded]

theorem Module.worded_toJson (m : Module) : m.toJson.Worded :=
  .record <| by
    simp [Faithful.text.worded, Faithful.optionText.worded, Faithful.bool.worded,
      PropertyValue.faithful.map.worded, TargetSettings.faithful.worded]

/-- What the type of a module can do is not written, so it is not read back. -/
theorem Module.ofJson_toJson (m : Module) :
    ofJson m.toJson = some { m with capability := .native } := by
  have hfields : m.toJson.fields
      ["name", "module_type", "dir", "namespace", "enabled", "props", "bazel"] =
      some [some (.text m.name), some (.text m.moduleType), some (.text m.dir),
        some (.option Json.text m.scope), some (.bool m.enabled),
        some (.map PropertyValue.toJson m.props), some m.settings.toJson] :=
    Json.fields_record (show
      ["name", "module_type", "dir", "namespace", "enabled", "props", "bazel"].Nodup by decide)
  simp [ofJson, hfields, Json.required, Json.optional, Faithful.text.decoded,
    Faithful.optionText.decoded, Faithful.bool.decoded, PropertyValue.faithful.map.decoded,
    TargetSettings.faithful.decoded]

/-! ## Labels and queries -/

theorem Label.faithful : Faithful Label.toJson Label.ofJson where
  worded l := .record <| by simp [Faithful.text.worded]
  decoded l := by
    have hfields : l.toJson.fields ["address", "original"] =
        some [some (.text l.address), some (.text l.spelling)] :=
      Json.fields_record (show ["address", "original"].Nodup by decide)
    simp [Label.ofJson, hfields, Json.required, Faithful.text.decoded]

theorem LabelList.faithful : Faithful LabelList.toJson LabelList.ofJson where
  worded l := .record <| by simp [Label.faithful.list.worded]
  decoded l := by
    have hfields : l.toJson.fields ["includes", "excludes"] =
        some [some (.array (l.includes.map Label.toJson)),
          some (.array (l.excludes.map Label.toJson))] :=
      Json.fields_record (show ["includes", "excludes"].Nodup by decide)
    simp [LabelList.ofJson, hfields, Json.required, Label.faithful.list.decoded]

theorem Request.faithful : Faithful Request.toJson Request.ofJson where
  worded
    | custom name => .record <| by simp [Faithful.text.worded]
    | outputFiles | ccInfo | binary => .string _
  decoded
    | custom _ => rfl
    | outputFiles | ccInfo | binary => by decide

theorem Query.faithful : Faithful Query.toJson Query.ofJson where
  worded q := .record <| by
    simp [Faithful.text.worded, Platform.faithful.worded, Request.faithful.worded]
  decoded q := by
    have hfields : q.toJson.fields ["label", "config", "request"] =
        some [some (.text q.label), some q.platform.toJson, some q.request.toJson] :=
      Json.fields_record (show ["label", "config", "request"].Nodup by decide)
    simp [Query.ofJson, hfields, Json.required, Faithful.text.decoded, Platform.faithful.decoded,
      Request.faithful.decoded]

/-- **Records are read back from their texts**, labels with their spellings; of a module, all
but what its type can do. -/
theorem records_round_trip :
    Json.RoundTrips Allowlist.toJson Allowlist.ofJson ∧
    (∀ m : Module, (Json.read (Json.render m.toJson)).bind Module.ofJson =
      some { m with capability := .native }) ∧
    Json.RoundTrips TargetSettings.toJson TargetSettings.ofJson ∧
    Json.RoundTrips PropertyValue.toJson PropertyValue.ofJson ∧
    Json.RoundTrips EdgeExemptions.toJson EdgeExemptions.ofJson ∧
    Json.RoundTrips Platform.toJson Platform.ofJson ∧
    Json.RoundTrips BuildMode.toJson BuildMode.ofJson ∧
    Json.RoundTrips DirDefault.toJson DirDefault.ofJson ∧
    Json.RoundTrips Label.toJson Label.ofJson ∧
    Json.RoundTrips LabelList.toJson LabelList.ofJson ∧
    Json.RoundTrips Request.toJson Request.ofJson ∧
    Json.RoundTrips Query.toJson Query.ofJson := by
  refine ⟨Allowlist.faithful.roundTrips, ?_, TargetSettings.faithful.roundTrips,
    PropertyValue.faithful.roundTrips, EdgeExemptions.faithful.roundTrips,
    Platform.faithful.roundTrips, BuildMode.faithful.roundTrips, DirDefault.faithful.roundTrips,
    Label.faithful.roundTrips, LabelList.faithful.roundTrips, Request.faithful.roundTrips,
    Query.faithful.roundTrips⟩
  intro m
  rw [m.worded_toJson.read_render]
  exact m.ofJson_toJson

end TargetGen
