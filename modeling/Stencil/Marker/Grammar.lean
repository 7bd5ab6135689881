/-
# Stencil.Marker.Grammar -- the words that are markers

`Marker.Word` states which texts are markers, without saying how they are found.  What the scan
reads as a marker is such a word at the front of the text (`word_of_read?`), so a scan is described
by its first step (`scan_of_read?_some`, `scan_of_read?_none`): either a marker stands at the front
and the scan goes on behind it, or the first character belongs to the text before the next marker.
-/
import Stencil.Marker

set_option autoImplicit false

namespace Stencil.Marker

/-- An index in decimal digits of any script. -/
def IsIndex (digits : Text) : Prop := digits ≠ [] ∧ ∀ c ∈ digits, Text.isDecimalDigit c = true

/-- The texts that are markers with a lead. -/
inductive Word (lead : Text) : Marker → Text → Prop where
  | comment {digits : Text} (index : IsIndex digits) :
      Word lead .text (['<', '!', '-', '-'] ++ lead ++ digits ++ ['-', '-', '>'])
  | assignment {blanks digits name : Text} {quote : Quote}
      (blank : ∀ c ∈ blanks, Text.isBlank c = true) (index : IsIndex digits)
      (named : name ≠ []) (unquoted : quote.char ∉ name) :
      Word lead (.attribute name quote)
        (blanks ++ lead ++ digits ++ '=' :: quote.char :: name ++ [quote.char])

/-- No marker is empty. -/
theorem Word.ne_nil {lead w : Text} {m : Marker} (h : Word lead m w) : w ≠ [] := by
  cases h <;> simp

/-! ## Reading one marker -/

theorem isIndex_of_afterIndex? {s rest : Text} (h : afterIndex? s = some rest) :
    ∃ digits, IsIndex digits ∧ s = digits ++ rest := by
  unfold afterIndex? at h
  have pieces := Text.splitRun_append Text.isDecimalDigit s
  have run := (Text.splitRun_spec Text.isDecimalDigit s).1
  split at h
  · exact nomatch h
  · next digits more hne hsplit =>
    obtain rfl := Option.some.inj h
    rw [hsplit] at pieces run
    exact ⟨digits, ⟨hne, run⟩, pieces.symm⟩

theorem word_of_afterComment? {lead s rest : Text} (h : afterComment? lead s = some rest) :
    ∃ w, Word lead .text w ∧ s = w ++ rest := by
  simp only [afterComment?, Option.bind_eq_bind, Option.bind_eq_some_iff] at h
  obtain ⟨s₁, h₁, s₂, h₂, s₃, h₃, h₄⟩ := h
  rw [Text.after?_eq_some_iff] at h₁ h₂ h₄
  obtain ⟨digits, index, rfl⟩ := isIndex_of_afterIndex? h₃
  exact ⟨_, .comment index, by simp [h₁, h₂, h₄]⟩

theorem eq_append_of_quotedName? {s rest : Text} {m : Marker}
    (h : quotedName? s = some (m, rest)) :
    ∃ name quote, name ≠ [] ∧ quote.char ∉ name ∧ m = .attribute name quote ∧
      s = quote.char :: name ++ quote.char :: rest := by
  cases s with
  | nil => exact nomatch h
  | cons q s =>
      simp only [quotedName?] at h
      split at h
      · next isQuote =>
        have pieces := Text.splitRun_append (fun c => c != q) s
        obtain ⟨run, stop⟩ := Text.splitRun_spec (fun c => c != q) s
        split at h
        · exact nomatch h
        · exact nomatch h
        · next name closing more hne hsplit =>
          obtain ⟨rfl, rfl⟩ := Prod.mk.inj (Option.some.inj h)
          rw [hsplit] at pieces run stop
          have same : (Quote.ofChar q).char = q := by
            rcases isQuote with rfl | rfl <;> rfl
          have closed : closing = q := by simpa using stop closing rfl
          refine ⟨name, Quote.ofChar q, hne, ?_, rfl, ?_⟩
          · rw [same]
            exact Text.all_ne_iff.1 run
          · rw [same, ← pieces, closed]
            rfl
      · exact nomatch h

theorem eq_append_of_assignment? {lead s rest : Text} {m : Marker}
    (h : assignment? lead s = some (m, rest)) :
    ∃ digits name quote, IsIndex digits ∧ name ≠ [] ∧ quote.char ∉ name ∧
      m = .attribute name quote ∧
        s = lead ++ digits ++ '=' :: quote.char :: name ++ quote.char :: rest := by
  simp only [assignment?, Option.bind_eq_bind, Option.bind_eq_some_iff] at h
  obtain ⟨s₁, h₁, s₂, h₂, s₃, h₃, h₄⟩ := h
  rw [Text.after?_eq_some_iff] at h₁ h₃
  obtain ⟨digits, index, rfl⟩ := isIndex_of_afterIndex? h₂
  obtain ⟨name, quote, named, unquoted, rfl, rfl⟩ := eq_append_of_quotedName? h₄
  exact ⟨digits, name, quote, index, named, unquoted, rfl, by simp [h₁, h₃]⟩

theorem word_of_assignment? {lead s rest : Text} {m : Marker}
    (h : assignment? lead s = some (m, rest)) (blanks : Text)
    (blank : ∀ c ∈ blanks, Text.isBlank c = true) :
    ∃ w, Word lead m w ∧ blanks ++ s = w ++ rest := by
  obtain ⟨digits, name, quote, index, named, unquoted, rfl, rfl⟩ := eq_append_of_assignment? h
  exact ⟨_, .assignment blank index named unquoted, by simp⟩

theorem word_of_blankAssignment? {lead : Text} {m : Marker} {rest : Text} :
    ∀ (s blanks : Text), (∀ c ∈ blanks, Text.isBlank c = true) →
      blankAssignment? lead s = some (m, rest) →
      ∃ w, Word lead m w ∧ blanks ++ s = w ++ rest
  | [], blanks, blank, h => word_of_assignment? h blanks blank
  | c :: cs, blanks, blank, h => by
      simp only [blankAssignment?] at h
      split at h
      · next isBlank =>
        split at h
        · next found hfound =>
          obtain rfl := Option.some.inj h
          have longer : ∀ d ∈ blanks ++ [c], Text.isBlank d = true := by
            intro d hd
            rcases List.mem_append.1 hd with hd | hd
            · exact blank d hd
            · exact List.mem_singleton.1 hd ▸ isBlank
          simpa using word_of_blankAssignment? cs (blanks ++ [c]) longer hfound
        · exact word_of_assignment? h blanks blank
      · exact word_of_assignment? h blanks blank

/-- What is read as a marker is a marker at the front of the text. -/
theorem word_of_read? {lead s rest : Text} {m : Marker} (h : read? lead s = some (m, rest)) :
    ∃ w, Word lead m w ∧ s = w ++ rest := by
  unfold read? at h
  split at h
  · next hcomment =>
    obtain ⟨rfl, rfl⟩ := Prod.mk.inj (Option.some.inj h)
    exact word_of_afterComment? hcomment
  · simpa using word_of_blankAssignment? s [] (by simp) h

/-! ## Every marker is read -/

theorem afterIndex?_append {digits rest : Text} (index : IsIndex digits)
    (stop : ∀ c ∈ rest.head?, Text.isDecimalDigit c = false) :
    afterIndex? (digits ++ rest) = some rest := by
  obtain ⟨ne, all⟩ := index
  rw [afterIndex?, Text.splitRun_append_of_all all stop]
  cases digits with
  | nil => exact absurd rfl ne
  | cons => rfl

/-- A comment at the front is read to its end. -/
theorem afterComment?_append {lead digits : Text} (index : IsIndex digits) (rest : Text) :
    afterComment? lead (['<', '!', '-', '-'] ++ lead ++ digits ++ ['-', '-', '>'] ++ rest) =
      some rest := by
  have stop : ∀ c ∈ (['-', '-', '>'] ++ rest).head?, Text.isDecimalDigit c = false := by
    simp only [List.cons_append, List.head?_cons, Option.mem_some_iff, forall_eq']
    decide
  simp only [afterComment?, List.append_assoc, Text.after?_append, Option.bind_eq_bind,
    Option.bind_some, afterIndex?_append index stop]

theorem quotedName?_append {name : Text} {quote : Quote} (named : name ≠ [])
    (unquoted : quote.char ∉ name) (rest : Text) :
    quotedName? (quote.char :: name ++ quote.char :: rest) =
      some (.attribute name quote, rest) := by
  have isQuote : quote.char = '"' ∨ quote.char = '\'' := by cases quote <;> simp [Quote.char]
  rw [List.cons_append, quotedName?, if_pos isQuote, Text.splitRun_ne_append unquoted]
  cases name with
  | nil => exact absurd rfl named
  | cons => simp

/-- An assignment at the front is read to its closing quote. -/
theorem assignment?_append (lead : Text) {digits name : Text} {quote : Quote}
    (index : IsIndex digits) (named : name ≠ []) (unquoted : quote.char ∉ name) (rest : Text) :
    assignment? lead (lead ++ digits ++ '=' :: quote.char :: name ++ quote.char :: rest) =
      some (.attribute name quote, rest) := by
  have stop : ∀ c ∈ ('=' :: (quote.char :: name ++ quote.char :: rest)).head?,
      Text.isDecimalDigit c = false := by
    simp only [List.head?_cons, Option.mem_some_iff, forall_eq']
    decide
  have regroup : lead ++ digits ++ '=' :: quote.char :: name ++ quote.char :: rest =
      lead ++ (digits ++ '=' :: (quote.char :: name ++ quote.char :: rest)) := by simp
  simp only [regroup, assignment?, Text.after?_append, Option.bind_eq_bind, Option.bind_some,
    afterIndex?_append index stop, Text.after?, if_true, quotedName?_append named unquoted]

/-- With an assignment behind the blanks something is read, though perhaps more blanks than these
are taken. -/
theorem isSome_blankAssignment? {lead s : Text} (found : (assignment? lead s).isSome = true) :
    ∀ blanks : Text, (∀ c ∈ blanks, Text.isBlank c = true) →
      (blankAssignment? lead (blanks ++ s)).isSome = true
  | [], _ => by
      cases s with
      | nil => exact found
      | cons c cs =>
          rw [List.nil_append, blankAssignment?]
          split
          · split
            · rfl
            · exact found
          · exact found
  | c :: cs, blank => by
      have shorter := isSome_blankAssignment? found cs fun d hd =>
        blank d (List.mem_cons_of_mem c hd)
      rw [List.cons_append, blankAssignment?, if_pos (blank c (List.mem_cons_self ..))]
      obtain ⟨m, more⟩ := Option.isSome_iff_exists.1 shorter
      rw [more]
      rfl

/-- With a marker at the front something is read. -/
theorem Word.isSome_read? {lead w : Text} {m : Marker} (word : Word lead m w) (rest : Text) :
    (read? lead (w ++ rest)).isSome = true := by
  unfold read?
  cases word with
  | comment index => rw [afterComment?_append index rest]; rfl
  | assignment blank index named unquoted =>
    split
    · rfl
    · rename_i blanks digits name quote _ _
      have found := Option.isSome_of_eq_some (assignment?_append lead index named unquoted rest)
      have spread : blanks ++ lead ++ digits ++ '=' :: quote.char :: name ++ [quote.char] ++ rest =
          blanks ++ (lead ++ digits ++ '=' :: quote.char :: name ++ quote.char :: rest) := by simp
      rw [spread]
      exact isSome_blankAssignment? found blanks blank

/-- Nothing is read exactly if no marker stands at the front. -/
theorem read?_eq_none_iff {lead s : Text} :
    read? lead s = none ↔ ∀ m w, Word lead m w → ¬ w <+: s := by
  constructor
  · rintro nothing m w word ⟨rest, rfl⟩
    have found := word.isSome_read? rest
    rw [nothing] at found
    exact nomatch found
  · intro free
    cases found : read? lead s with
    | none => rfl
    | some read =>
        obtain ⟨m, rest⟩ := read
        obtain ⟨w, word, rfl⟩ := word_of_read? found
        exact absurd (List.prefix_append w rest) (free m w word)

/-! ## The first step of a scan -/

/-- The characters of a marker found before are passed over. -/
theorem scanFrom_eq_scan_drop (lead : Text) :
    ∀ (skip : Nat) (s : Text), scanFrom lead skip s = scan lead (s.drop skip)
  | 0, s => by rw [List.drop_zero, scan]
  | skip + 1, [] => by simp [scanFrom, scan]
  | skip + 1, c :: cs => by
      rw [scanFrom, scanFrom_eq_scan_drop lead skip cs, List.drop_succ_cons]

@[simp] theorem scan_nil (lead : Text) : scan lead [] = ([], []) := by simp [scan, scanFrom]

/-- With a marker at the front the scan goes on behind the marker. -/
theorem scan_of_read?_some {lead s rest : Text} {m : Marker}
    (h : read? lead s = some (m, rest)) :
    scan lead s = (([], m) :: (scan lead rest).1, (scan lead rest).2) := by
  obtain ⟨w, word, rfl⟩ := word_of_read? h
  cases w with
  | nil => exact absurd rfl word.ne_nil
  | cons c w =>
      have behind : (w ++ rest).drop ((w ++ rest).length - rest.length) = rest := by simp
      rw [List.cons_append] at h ⊢
      rw [scan, scanFrom, h]
      simp only [scanFrom_eq_scan_drop, behind]

/-- Without a marker at the front the first character is text before the next marker. -/
theorem scan_of_read?_none {lead cs : Text} {c : Char} (h : read? lead (c :: cs) = none) :
    scan lead (c :: cs) = push c (scan lead cs) := by
  simp only [scan, scanFrom, h]

end Stencil.Marker
