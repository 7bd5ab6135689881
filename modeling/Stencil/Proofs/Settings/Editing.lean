/-
# Stencil.Proofs.Settings.Editing -- stored settings that were edited

Settings are stored as an object with one field for each setting.  By hand the fields may be put in
another order, a field with the default of its setting may be left out, and fields with other names
may be added, with any JSON in them.  `Settings.Edited` are the objects that come about in this way,
one rule for each edit, and all of them are read as the settings that were stored
(`Edited.ofTree?_eq`).  So are their texts, wherever blanks stand in them, and so is the text that
was saved, whatever system wrote it (`load_edited`).

Reading an object reads each setting on its own: a field changes what is known of the setting with
its name and of no other (`read?_eq_some`).  What the fields give for one name is `given?`, and an
edit is followed there, once for all settings.
-/
import Stencil.Proofs.Json.Reading
import Stencil.Settings.Stored

set_option autoImplicit false

namespace Stencil.Settings

open Json

/-! ## One setting -/

section Setting

variable {α : Type} {name key : Text} {value? : Tree → Option α}

/-- What is known of the setting with a name after one field more. -/
def keep? (name : Text) (value? : Tree → Option α) (known : Option α) (field : Text × Tree) :
    Option (Option α) := do
  let key ← decode? field.1
  if key = name then if known.isSome then none else (value? field.2).map some
  else some known

/-- What fields give for the setting with a name, its default if they do not name it. -/
def given? (name : Text) (value? : Tree → Option α) (default : α) (fields : List (Text × Tree)) :
    Option α :=
  (fields.foldlM (keep? name value?) none).map (·.getD default)

theorem keep?_of_ne {field : Text × Tree} (decoded : decode? field.1 = some key)
    (ne : key ≠ name) (known : Option α) : keep? name value? known field = some known := by
  simp [keep?, decoded, ne]

theorem keep?_of_eq {field : Text × Tree} (decoded : decode? field.1 = some name)
    (known : Option α) : keep? name value? known field =
      if known.isSome then none else (value? field.2).map some := by
  simp [keep?, decoded]

/-- A second field of the name is refused, so it does not matter which of two fields comes first. -/
theorem keep?_comm (known : Option α) (f g : Text × Tree) :
    (keep? name value? known f).bind (keep? name value? · g) =
      (keep? name value? known g).bind (keep? name value? · f) := by
  cases first : decode? f.1 with
  | none => simp [keep?, first]
  | some key =>
      cases second : decode? g.1 with
      | none => simp [keep?, second]
      | some key' =>
          by_cases ne : key = name
          · by_cases ne' : key' = name
            · subst ne ne'
              -- Whichever comes second is refused, or the first is already.
              have refused (f g : Text × Tree) (first : decode? f.1 = some key')
                  (second : decode? g.1 = some key') :
                  (keep? key' value? known f).bind (keep? key' value? · g) = none := by
                simp only [keep?_of_eq first, keep?_of_eq second]
                cases known <;> cases value? f.2 <;> simp
              rw [refused f g first second, refused g f second first]
            · simp [keep?_of_ne second ne']
          · simp [keep?_of_ne first ne]

theorem foldlM_keep?_perm {fields fields' : List (Text × Tree)} (order : fields.Perm fields')
    (known : Option α) :
    fields.foldlM (keep? name value?) known = fields'.foldlM (keep? name value?) known := by
  induction order generalizing known with
  | nil => rfl
  | cons field _ ih => simp only [List.foldlM_cons, ih]
  | swap f g rest =>
      simp only [List.foldlM_cons, Option.bind_eq_bind, ← Option.bind_assoc]
      rw [keep?_comm]
  | trans _ _ ih ih' => rw [ih, ih']

variable {default value : α} {before after : List (Text × Tree)} {field : Text × Tree}

theorem given?_perm {fields fields' : List (Text × Tree)} (order : fields.Perm fields') :
    given? name value? default fields = given? name value? default fields' := by
  rw [given?, given?, foldlM_keep?_perm order]

/-- A field of another name gives nothing. -/
theorem given?_other (decoded : decode? field.1 = some key) (ne : key ≠ name) :
    given? name value? default (before ++ field :: after) =
      given? name value? default (before ++ after) := by
  simp only [given?, List.foldlM_append, List.foldlM_cons, keep?_of_ne decoded ne,
    Option.bind_eq_bind, Option.bind_some]

/-- A field that gives the default is not missed. -/
theorem given?_without (given : given? name value? default (before ++ field :: after) = some value)
    (decoded : decode? field.1 = some key) (same : key = name → value? field.2 = some default) :
    given? name value? default (before ++ after) = some value := by
  by_cases ne : key = name
  · subst ne
    -- Read last, the field finds nothing known: otherwise it would be refused.
    rw [given?_perm (List.perm_middle.trans (List.perm_append_singleton ..).symm), given?,
      List.foldlM_append] at given
    obtain ⟨last, read, rfl⟩ := Option.map_eq_some_iff.1 given
    obtain ⟨known, others, read⟩ := Option.bind_eq_some_iff.1 read
    obtain ⟨rfl, rfl⟩ : known = none ∧ last = some default := by
      cases known with
      | none => simpa [keep?_of_eq decoded, same rfl, eq_comm] using read
      | some v => simp [keep?_of_eq decoded] at read
    simp [given?, others]
  · rwa [given?_other decoded ne] at given

end Setting

/-! ## All settings -/

/-- A field tells of the setting with its name and of no other. -/
theorem Found.read?_eq_some {found next : Found} {field : Text × Tree} :
    found.read? field = some next ↔
      keep? leadField lead? found.markerLead field = some next.markerLead ∧
        keep? svgField bool? found.svg field = some next.svg ∧
          keep? minifyField bool? found.minify field = some next.minify := by
  obtain ⟨lead, svg, minify⟩ := found
  obtain ⟨lead', svg', minify'⟩ := next
  cases decoded : decode? field.1 with
  | none => simp [Found.read?, keep?, decoded]
  | some key =>
      -- The names are apart, so at most one of the three settings is touched.
      by_cases isLead : key = leadField
      · subst isLead
        have notSvg : leadField ≠ svgField := by decide
        have notMinify : leadField ≠ minifyField := by decide
        simp only [Found.read?, keep?, decoded, Option.bind_eq_bind, Option.bind_some, if_true,
          if_neg notSvg, if_neg notMinify]
        cases lead <;> cases lead? field.2 <;> simp
      by_cases isSvg : key = svgField
      · subst isSvg
        have notLead : svgField ≠ leadField := by decide
        have notMinify : svgField ≠ minifyField := by decide
        simp only [Found.read?, keep?, decoded, Option.bind_eq_bind, Option.bind_some, if_true,
          if_neg notLead, if_neg notMinify]
        cases svg <;> cases bool? field.2 <;> simp
      by_cases isMinify : key = minifyField
      · subst isMinify
        have notLead : minifyField ≠ leadField := by decide
        have notSvg : minifyField ≠ svgField := by decide
        simp only [Found.read?, keep?, decoded, Option.bind_eq_bind, Option.bind_some, if_true,
          if_neg notLead, if_neg notSvg]
        cases minify <;> cases bool? field.2 <;> simp
      · simp [Found.read?, keep?, decoded, isLead, isSvg, isMinify]

theorem Found.foldlM_read?_eq_some {fields : List (Text × Tree)} {found last : Found} :
    fields.foldlM Found.read? found = some last ↔
      fields.foldlM (keep? leadField lead?) found.markerLead = some last.markerLead ∧
        fields.foldlM (keep? svgField bool?) found.svg = some last.svg ∧
          fields.foldlM (keep? minifyField bool?) found.minify = some last.minify := by
  induction fields generalizing found with
  | nil =>
      obtain ⟨lead, svg, minify⟩ := found
      obtain ⟨lead', svg', minify'⟩ := last
      simp
  | cons field fields ih =>
      simp only [List.foldlM_cons, Option.bind_eq_bind, Option.bind_eq_some_iff, ih,
        Found.read?_eq_some]
      constructor
      · rintro ⟨next, ⟨lead, svg, minify⟩, leads, svgs, minifies⟩
        exact ⟨⟨_, lead, leads⟩, ⟨_, svg, svgs⟩, ⟨_, minify, minifies⟩⟩
      · rintro ⟨⟨l, lead, leads⟩, ⟨v, svg, svgs⟩, ⟨m, minify, minifies⟩⟩
        exact ⟨⟨l, v, m⟩, ⟨lead, svg, minify⟩, leads, svgs, minifies⟩

/-- An object is read setting by setting. -/
theorem ofTree?_object_eq_some {fields : List (Text × Tree)} {s : Settings} :
    ofTree? (.object fields) = some s ↔
      given? leadField lead? none fields = some s.markerLead ∧
        given? svgField bool? false fields = some s.svg ∧
          given? minifyField bool? false fields = some s.minify := by
  obtain ⟨lead, svg, minify⟩ := s
  simp only [ofTree?, given?, Option.map_eq_some_iff, Found.foldlM_read?_eq_some]
  constructor
  · rintro ⟨last, ⟨leads, svgs, minifies⟩, same⟩
    obtain ⟨rfl, rfl, rfl⟩ := Settings.mk.inj same
    exact ⟨⟨_, leads, rfl⟩, ⟨_, svgs, rfl⟩, ⟨_, minifies, rfl⟩⟩
  · rintro ⟨⟨l, leads, rfl⟩, ⟨v, svgs, rfl⟩, ⟨m, minifies, rfl⟩⟩
    exact ⟨⟨l, v, m⟩, ⟨leads, svgs, minifies⟩, rfl⟩

/-! ## Edits -/

/-- The fields that settings are stored in. -/
def storedFields (s : Settings) : List (Text × Tree) :=
  [(encode leadField, leadTree s.markerLead), (encode svgField, .bool s.svg),
    (encode minifyField, .bool s.minify)]

theorem toTree_eq_object (s : Settings) : s.toTree = .object s.storedFields := rfl

/-- A field with a name that is no setting's, and with any JSON in it. -/
structure Other (field : Text × Tree) : Prop where
  key : Written field.1
  value : field.2.Proper
  name : ∃ name, decode? field.1 = some name ∧ name ∉ [leadField, svgField, minifyField]

/-- The fields come about by edits from those that the settings are stored in. -/
inductive Edited (s : Settings) : List (Text × Tree) → Prop where
  | stored : Edited s s.storedFields
  | reordered {fields fields' : List (Text × Tree)} (edited : Edited s fields)
      (order : fields.Perm fields') : Edited s fields'
  | without {before after : List (Text × Tree)} {field : Text × Tree}
      (edited : Edited s (before ++ field :: after)) (default : field ∈ storedFields {}) :
      Edited s (before ++ after)
  | added {before after : List (Text × Tree)} {field : Text × Tree}
      (edited : Edited s (before ++ after)) (other : Other field) :
      Edited s (before ++ field :: after)

@[simp] theorem lead?_leadTree (lead : Option Text) : lead? (leadTree lead) = some lead := by
  cases lead with
  | none => rfl
  | some s => simp [leadTree, Tree.ofText, lead?, decode?_encode]

/-- What was stored is read. -/
theorem ofTree?_toTree (s : Settings) : ofTree? s.toTree = some s := by
  obtain ⟨lead, svg, minify⟩ := s
  have notLead : svgField ≠ leadField ∧ minifyField ≠ leadField := by decide
  have notSvg : minifyField ≠ svgField := by decide
  rw [toTree_eq_object]
  simp [ofTree?, storedFields, Found.read?, decode?_encode, lead?_leadTree, bool?, notLead, notSvg,
    Found.settings]

theorem ofTree?_perm {fields fields' : List (Text × Tree)} (order : fields.Perm fields')
    {s : Settings} (read : ofTree? (.object fields) = some s) :
    ofTree? (.object fields') = some s := by
  rw [ofTree?_object_eq_some] at read ⊢
  rwa [← given?_perm order, ← given?_perm order, ← given?_perm order]

theorem decode?_of_default {field : Text × Tree} (default : field ∈ storedFields {}) :
    ∃ key, decode? field.1 = some key ∧ (key = leadField → lead? field.2 = some none) ∧
      (key = svgField → bool? field.2 = some false) ∧
        (key = minifyField → bool? field.2 = some false) := by
  simp only [storedFields, List.mem_cons, List.not_mem_nil, or_false] at default
  rcases default with rfl | rfl | rfl
  · exact ⟨leadField, decode?_encode _, fun _ => rfl, nofun, nofun⟩
  · exact ⟨svgField, decode?_encode _, nofun, fun _ => rfl, fun _ => rfl⟩
  · exact ⟨minifyField, decode?_encode _, nofun, fun _ => rfl, fun _ => rfl⟩

theorem ofTree?_without {before after : List (Text × Tree)} {field : Text × Tree} {s : Settings}
    (read : ofTree? (.object (before ++ field :: after)) = some s)
    (default : field ∈ storedFields {}) : ofTree? (.object (before ++ after)) = some s := by
  obtain ⟨key, decoded, lead, svg, minify⟩ := decode?_of_default default
  rw [ofTree?_object_eq_some] at read ⊢
  obtain ⟨leads, svgs, minifies⟩ := read
  exact ⟨given?_without leads decoded lead, given?_without svgs decoded svg,
    given?_without minifies decoded minify⟩

theorem ofTree?_added {before after : List (Text × Tree)} {field : Text × Tree} {s : Settings}
    (read : ofTree? (.object (before ++ after)) = some s) (other : Other field) :
    ofTree? (.object (before ++ field :: after)) = some s := by
  obtain ⟨key, decoded, apart⟩ := other.name
  simp only [List.mem_cons, List.not_mem_nil, or_false, not_or] at apart
  obtain ⟨lead, svg, minify⟩ := apart
  rw [ofTree?_object_eq_some] at read ⊢
  rwa [given?_other decoded lead, given?_other decoded svg, given?_other decoded minify]

/-- Edited fields are read as the settings that were stored. -/
theorem Edited.ofTree?_eq {s : Settings} {fields : List (Text × Tree)} (edited : Edited s fields) :
    ofTree? (.object fields) = some s := by
  induction edited with
  | stored => exact ofTree?_toTree s
  | reordered _ order read => exact ofTree?_perm order read
  | without _ default read => exact ofTree?_without read default
  | added _ other read => exact ofTree?_added read other

theorem proper_leadTree (lead : Option Text) : (leadTree lead).Proper := by
  cases lead with
  | none => trivial
  | some s => exact written_encode s

/-- Edited fields are words of the grammar. -/
theorem Edited.proper {s : Settings} {fields : List (Text × Tree)} (edited : Edited s fields) :
    (Tree.object fields).Proper := by
  show Tree.FieldsProper fields
  rw [Tree.fieldsProper_iff]
  induction edited with
  | stored =>
      simp only [storedFields, List.mem_cons, List.not_mem_nil, or_false]
      rintro field (rfl | rfl | rfl)
      · exact ⟨written_encode _, proper_leadTree _⟩
      · exact ⟨written_encode _, trivial⟩
      · exact ⟨written_encode _, trivial⟩
  | reordered _ order proper => exact fun field member => proper field (order.mem_iff.2 member)
  | without _ _ proper =>
      exact fun field member =>
        proper field (List.perm_middle.mem_iff.2 (List.mem_cons_of_mem _ member))
  | added _ other proper =>
      intro field member
      rcases List.mem_cons.1 (List.perm_middle.mem_iff.1 member) with rfl | old
      · exact ⟨other.key, other.value⟩
      · exact proper field old

/-! ## Files -/

/-- What a file with the text holds. -/
def fileBytes (text : Text) : ByteArray := (String.ofList text).toUTF8

theorem fromUTF8?_fileBytes (text : Text) :
    String.fromUTF8? (fileBytes text) = some (String.ofList text) := by
  have valid : (fileBytes text).IsValidUTF8 := (String.ofList text).isValidUTF8
  rw [String.fromUTF8?, dif_pos valid]
  rfl

theorem load_fileBytes {text : Text} {s : Settings} (read : read? text = some s) (path : Text) :
    load path (some (fileBytes text)) = .ok s := by
  simp [load, fromUTF8?_fileBytes, read]

/-- Any text of edited fields is read as the settings that were stored. -/
theorem Edited.read?_eq {s : Settings} {fields : List (Text × Tree)} (edited : Edited s fields)
    {text : Text} (layout : Padded (Tree.object fields).Layout text) : read? text = some s := by
  rw [read?, Tree.ofText?_of_layout edited.proper layout]
  exact edited.ofTree?_eq

/-- What is written is a text of the stored fields. -/
theorem layout_write (s : Settings) : Padded (Tree.object s.storedFields).Layout s.write :=
  .of_core (Tree.layout_pretty 0 s.toTree)

/-- Settings that a system writes are loaded as they were. -/
theorem load_saveTo {storage : Storage} {path : Text} (accepted : storage path = none)
    (s : Settings) :
    ∃ text, s.saveTo storage path = .ok text ∧ load path (some (fileBytes text)) = .ok s := by
  refine ⟨s.write, ?_, load_fileBytes (Edited.stored.read?_eq (layout_write s)) path⟩
  rw [saveTo, accepted]

/-- The text that settings are saved as is loaded as they were.  Any system writes this text or
refuses it in its own words, and no other failure is there.  All objects that come about by edits
from the saved one are loaded as the settings too, wherever blanks stand in their text. -/
theorem load_edited (s : Settings) (path : Text) :
    load path (some (fileBytes s.write)) = .ok s ∧
    (∀ storage : Storage,
      (storage path = none →
        ∃ text, s.saveTo storage path = .ok text ∧ load path (some (fileBytes text)) = .ok s) ∧
      ∀ refusal, storage path = some refusal →
        s.saveTo storage path = .error (.notWritten refusal)) ∧
    (Storage.refusal? path = none →
      ∃ text, s.save path = .ok text ∧ load path (some (fileBytes text)) = .ok s) ∧
    ∀ fields text, Edited s fields → Padded (Tree.object fields).Layout text →
      load path (some (fileBytes text)) = .ok s := by
  refine ⟨load_fileBytes (Edited.stored.read?_eq (layout_write s)) path, ?_, ?_, ?_⟩
  · intro storage
    refine ⟨fun accepted => load_saveTo accepted s, fun refusal refused => ?_⟩
    rw [saveTo, refused]
  · intro accepted
    exact load_saveTo accepted s
  · intro fields text edited layout
    exact load_fileBytes (edited.read?_eq layout) path

/-- Settings with a lead that is written with escapes. -/
def quoted : Settings where
  markerLead := some ['"', '\\', '\n', '😀']
  svg := true

/-- The settings with a note, without the default, and with the lead at the end. -/
def noted : List (Text × Tree) :=
  [(encode svgField, .bool true), ("note".toList, .array [.null, .object []]),
    (encode leadField, leadTree quoted.markerLead)]

theorem edited_noted : Edited quoted noted := by
  have short : Edited quoted
      [(encode leadField, leadTree quoted.markerLead), (encode svgField, .bool true)] :=
    @Edited.without quoted [_, _] [] _ .stored (by simp [storedFields, quoted])
  have turned := short.reordered (List.Perm.swap ..)
  have other : Other ("note".toList, .array [.null, .object []]) := by
    refine ⟨written_encode "note".toList, ⟨trivial, trivial, trivial⟩, "note".toList, ?_, by decide⟩
    exact decode?_encode "note".toList
  exact @Edited.added quoted [_] _ _ turned other

/-- A folder that holds another folder and nothing else. -/
def withFolder (name : Text) : Storage := fun path =>
  Storage.refusal? ((Text.after? (name ++ ['/']) path).getD path)

/-- A system that keeps no files. -/
def refusing : Storage := fun _ => some (.system "Read-only file system (os error 30)".toList)

/-- The settings are loaded as they were from a folder without files and from a folder in it, and a
system that does not write them says so. -/
theorem load_noted :
    Storage.refusal? "is.json".toList = none ∧ Edited quoted noted ∧
      (∃ text, quoted.save "is.json".toList = .ok text ∧
        load "is.json".toList (some (fileBytes text)) = .ok quoted) ∧
      load "is.json".toList (some (fileBytes ((Tree.object noted).pretty 0))) = .ok quoted ∧
      Storage.refusal? "kept/is.json".toList = some .missingFolder ∧
      withFolder "kept".toList "kept/is.json".toList = none ∧
      (∃ text, quoted.saveTo (withFolder "kept".toList) "kept/is.json".toList = .ok text ∧
        load "kept/is.json".toList (some (fileBytes text)) = .ok quoted) ∧
      quoted.saveTo refusing "is.json".toList =
        .error (.notWritten (.system "Read-only file system (os error 30)".toList)) := by
  have accepted : Storage.refusal? "is.json".toList = none := by decide
  have inFolder : withFolder "kept".toList "kept/is.json".toList = none := by decide
  obtain ⟨-, answered, saved, edited⟩ := load_edited quoted "is.json".toList
  obtain ⟨-, kept, -⟩ := load_edited quoted "kept/is.json".toList
  exact ⟨accepted, edited_noted, saved accepted,
    edited noted _ edited_noted (.of_core (Tree.layout_pretty 0 _)), by decide, inFolder,
    (kept _).1 inFolder, (answered refusing).2 _ rfl⟩

end Stencil.Settings
