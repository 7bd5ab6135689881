/-
# Stencil.Proofs.Json.Reading -- the reader reads every text of a tree

What a tree's grammar admits, the reader accepts, and it gives the same tree back:
`Tree.ofText?_of_layout`.  A piece is always read with what follows it, and where it ends depends on
that: strings, arrays and objects end in a character of their own, but a number ends only where no
digit, point or exponent follows (`Stops`).

The reader recurses on a bound.  A tree needs at most twice the length of its text
(`Reader.tree?_of_layout`): each step into an item or a field goes past a character.
-/
import Stencil.Proofs.Json.Layout

set_option autoImplicit false

namespace Stencil.Json

/-! ## Blanks -/

theorem skipBlanks_append {blanks : Text} (all : Blanks blanks) (s : Text) :
    skipBlanks (blanks ++ s) = skipBlanks s :=
  List.dropWhile_append_of_pos all

theorem skipBlanks_of_blanks {s : Text} (all : Blanks s) : skipBlanks s = [] := by
  have skipped := skipBlanks_append all []
  rwa [List.append_nil] at skipped

theorem skipBlanks_cons {c : Char} (visible : isBlank c = false) (s : Text) :
    skipBlanks (c :: s) = c :: s := by
  simp [skipBlanks, visible]

/-- Blanks are passed over up to what stands behind them. -/
theorem skipBlanks_append_cons {blanks : Text} (all : Blanks blanks) {c : Char}
    (visible : isBlank c = false) (s : Text) : skipBlanks (blanks ++ c :: s) = c :: s := by
  rw [skipBlanks_append all, skipBlanks_cons visible]

/-! ## Strings -/

/-- A string of the grammar ends at its closing quote. -/
theorem scan_of_written {raw : Text} (written : Written raw) (rest : Text) :
    scan (raw ++ '"' :: rest) = some (raw, rest) := by
  induction written with
  | nil => rfl
  | plain quote backslash control _ ih =>
      simp [scan_plain quote backslash control, ih]
  | escape stands _ ih => simp [scan_escape stands, ih]
  | unit stands _ ih => simp [scan_unit stands, ih]

/-! ## Numbers -/

/-- What no number can go on with. -/
def Stops (s : Text) : Prop :=
  ∀ c ∈ s.head?, c.isDigit = false ∧ c ≠ '.' ∧ c ≠ 'e' ∧ c ≠ 'E'

theorem stops_nil : Stops [] := nofun

theorem stops_cons {c : Char} (s : Text)
    (stop : c.isDigit = false ∧ c ≠ '.' ∧ c ≠ 'e' ∧ c ≠ 'E') : Stops (c :: s) := by
  intro d first
  obtain rfl : c = d := Option.some.inj first
  exact stop

/-- Blanks stop a number. -/
theorem Stops.blanks_append {gap s : Text} (blanks : Blanks gap) (stops : Stops s) :
    Stops (gap ++ s) := by
  cases gap with
  | nil => exact stops
  | cons c gap =>
      refine stops_cons _ ?_
      have blank : ((c = ' ' ∨ c = '\t') ∨ c = '\n') ∨ c = '\r' := by
        simpa [isBlank] using blanks c (List.mem_cons_self ..)
      rcases blank with ((rfl | rfl) | rfl) | rfl
      all_goals decide

namespace Reader

/-- No digit is next. -/
def NoDigit (s : Text) : Prop := ∀ c ∈ s.head?, c.isDigit = false

theorem digits?_append {digits rest : Text} (all : Digits digits) (ne : digits ≠ [])
    (stop : NoDigit rest) : digits? (digits ++ rest) = some (digits, rest) := by
  rw [digits?, Text.splitRun_append_of_all all stop]
  cases digits with
  | nil => exact absurd rfl ne
  | cons c more => rfl

theorem whole?_append {n : Numeral} (proper : n.Proper) {rest : Text} (stop : NoDigit rest) :
    whole? (n.whole ++ rest) = some (n.whole, rest) := by
  rw [whole?, digits?_append proper.whole_digits proper.whole_ne_nil stop]
  split
  · next c more rest' same =>
    exact absurd (Prod.mk.inj (Option.some.inj same)).1 (proper.zero_alone c more)
  · rfl

theorem fraction?_append {n : Numeral} (proper : n.Proper) {rest : Text} (stop : NoDigit rest)
    (point : ∀ c ∈ rest.head?, c ≠ '.') :
    fraction? (n.fractionText ++ rest) = some (n.fraction, rest) := by
  by_cases none : n.fraction = []
  · rw [Numeral.fractionText, none]
    show fraction? rest = some ([], rest)
    unfold fraction?
    split
    · next more => exact absurd rfl (point '.' rfl)
    · rfl
  · have text : n.fractionText = '.' :: n.fraction := by simp [Numeral.fractionText, none]
    rw [text]
    exact digits?_append proper.fraction_digits none stop

theorem ne_of_digit {c d : Char} (digit : c.isDigit = true) (other : d.isDigit = false) :
    c ≠ d := by
  rintro rfl
  rw [digit] at other
  exact nomatch other

theorem exponentSign_of_digit {c : Char} (digit : c.isDigit = true) (rest : Text) :
    exponentSign (c :: rest) = (false, c :: rest) := by
  unfold exponentSign
  split
  · next same => exact absurd (List.cons.inj same).1 (ne_of_digit digit (by decide))
  · next same => exact absurd (List.cons.inj same).1 (ne_of_digit digit (by decide))
  · rfl

theorem exponentSign_append {negative : Bool} {sign : Text}
    (signed : Numeral.SignLayout negative sign) {digits : Text} (all : Digits digits)
    (ne : digits ≠ []) (rest : Text) :
    exponentSign (sign ++ digits ++ rest) = (negative, digits ++ rest) := by
  cases signed with
  | plus => rfl
  | minus => rfl
  | none =>
      obtain ⟨c, more, rfl⟩ := List.exists_cons_of_ne_nil ne
      exact exponentSign_of_digit (all c (List.mem_cons_self ..)) _

theorem exponent?_append {n : Numeral} (proper : n.Proper) {exponent rest : Text}
    (layout : Numeral.ExponentLayout n.exponent exponent) (stops : Stops rest) :
    exponent? (exponent ++ rest) = some (n.exponent, rest) := by
  have noDigit : NoDigit rest := fun c first => (stops c first).1
  generalize written : n.exponent = e at layout
  cases layout with
  | none =>
      rw [List.nil_append]
      unfold exponent?
      split
      · next c more =>
        obtain ⟨-, -, not_e, not_E⟩ := stops c rfl
        rw [if_neg (by simp [not_e, not_E])]
      · rfl
  | @some negative digits sign mark marked signed =>
      obtain ⟨all, ne⟩ := proper.exponent_digits negative digits written
      rw [List.cons_append, List.cons_append, exponent?, if_pos marked,
        exponentSign_append signed all ne]
      simp only [digits?_append all ne noDigit, Option.map_some]

/-- Neither an exponent nor what follows it begins with a digit or a point. -/
theorem head_exponent {e : Option (Bool × Text)} {exponent rest : Text}
    (layout : Numeral.ExponentLayout e exponent) (stops : Stops rest) :
    ∀ c ∈ (exponent ++ rest).head?, c.isDigit = false ∧ c ≠ '.' := by
  intro c first
  cases layout with
  | none => exact ⟨(stops c first).1, (stops c first).2.1⟩
  | some marked signed =>
      obtain rfl := Option.some.inj first
      rcases marked with rfl | rfl
      all_goals decide

theorem noDigit_fractionText (n : Numeral) {rest : Text} (noDigit : NoDigit rest) :
    NoDigit (n.fractionText ++ rest) := by
  intro c first
  by_cases none : n.fraction = []
  · rw [Numeral.fractionText, none] at first
    exact noDigit c first
  · have point : '.' = c := by simpa [Numeral.fractionText, none] using first
    subst point
    rfl

/-- A number of the grammar ends where no number can go on. -/
theorem numeral?_append {n : Numeral} (proper : n.Proper) {s rest : Text} (layout : n.Layout s)
    (stops : Stops rest) : numeral? (s ++ rest) = some (n, rest) := by
  obtain ⟨exponent, exponentLayout, rfl⟩ := layout
  have head := head_exponent exponentLayout stops
  have noDigit : NoDigit (exponent ++ rest) := fun c first => (head c first).1
  -- Each part ends where the next one begins, because none of them begins with a digit.
  have wholeRead := whole?_append proper (noDigit_fractionText n noDigit)
  have fractionRead := fraction?_append proper noDigit fun c first => (head c first).2
  have exponentRead := exponent?_append proper exponentLayout stops
  simp only [List.append_assoc, Numeral.signText]
  unfold numeral?
  cases sign : n.negative with
  | true =>
      simp only [if_true, List.cons_append, List.nil_append]
      simp [wholeRead, fractionRead, exponentRead, ← sign]
  | false =>
      -- Without a sign the number begins with a digit, which is not taken for one.
      obtain ⟨c, more, whole⟩ := List.exists_cons_of_ne_nil proper.whole_ne_nil
      have digit : c.isDigit = true := proper.whole_digits c (by simp [whole])
      simp only [Bool.false_eq_true, if_false, List.nil_append]
      split
      · next same =>
        rw [whole] at same
        exact absurd (List.cons.inj same).1 (ne_of_digit digit (by decide))
      · simp [wholeRead, fractionRead, exponentRead, ← sign]

/-! ## Trees -/

theorem tree?_blanks_append {blanks : Text} (all : Blanks blanks) (bound : Nat) (s : Text) :
    tree? bound (blanks ++ s) = tree? bound s := by
  cases bound with
  | zero => rfl
  | succ bound => rw [tree?, tree?, skipBlanks_append all]

/-- Blanks around a tree are passed over, in front of it and by whoever reads on behind it. -/
theorem tree?_padded {t : Tree} {bound : Nat} {before core gap rest : Text} (blanks : Blanks before)
    (blanks' : Blanks gap) (stops : Stops rest)
    (reads : ∀ rest, Stops rest → tree? bound (core ++ rest) = some (t, rest)) :
    tree? bound (before ++ core ++ gap ++ rest) = some (t, gap ++ rest) := by
  simp only [List.append_assoc]
  rw [tree?_blanks_append blanks]
  exact reads _ (stops.blanks_append blanks')

/-- A number begins with a sign or a digit. -/
theorem exists_head_numeral {n : Numeral} (proper : n.Proper) {s : Text} (layout : n.Layout s) :
    ∃ c more, s = c :: more ∧ (c = '-' ∨ c.isDigit = true) := by
  obtain ⟨exponent, -, rfl⟩ := layout
  obtain ⟨c, more, whole⟩ := List.exists_cons_of_ne_nil proper.whole_ne_nil
  have digit : c.isDigit = true := proper.whole_digits c (by simp [whole])
  rw [Numeral.signText, whole]
  cases n.negative with
  | true => exact ⟨'-', _, rfl, .inl rfl⟩
  | false => exact ⟨c, _, rfl, .inr digit⟩

/-- Neither a sign nor a digit is a blank, or begins anything else. -/
theorem ne_of_numeral_head {c d : Char} (head : c = '-' ∨ c.isDigit = true) (sign : d ≠ '-')
    (digit : d.isDigit = false) : c ≠ d := by
  rcases head with rfl | isDigit
  · exact sign.symm
  · exact ne_of_digit isDigit digit

theorem isBlank_of_numeral_head {c : Char} (head : c = '-' ∨ c.isDigit = true) :
    isBlank c = false := by
  have apart {d : Char} (sign : d ≠ '-') (digit : d.isDigit = false) : (c == d) = false :=
    beq_eq_false_iff_ne.2 (ne_of_numeral_head head sign digit)
  rw [isBlank, apart (by decide) (by decide), apart (by decide) (by decide),
    apart (by decide) (by decide), apart (by decide) (by decide)]
  rfl

theorem word?_eq_none {c : Char} (n : c ≠ 'n') (t : c ≠ 't') (f : c ≠ 'f') (rest : Text) :
    word? (c :: rest) = none := by
  simp [word?, Text.after?, n.symm, t.symm, f.symm]

theorem tree?_number {n : Numeral} (proper : n.Proper) {s : Text} (layout : n.Layout s)
    (bound : Nat) {rest : Text} (stops : Stops rest) :
    tree? (bound + 1) (s ++ rest) = some (.number n, rest) := by
  have read := numeral?_append proper layout stops
  obtain ⟨c, more, rfl, head⟩ := exists_head_numeral proper layout
  have apart {d : Char} := @ne_of_numeral_head c d head
  rw [List.cons_append] at read ⊢
  rw [tree?, skipBlanks_cons (isBlank_of_numeral_head head)]
  split
  · next same => exact absurd (List.cons.inj same).1 (apart (by decide) (by decide))
  · next same => exact absurd (List.cons.inj same).1 (apart (by decide) (by decide))
  · next same => exact absurd (List.cons.inj same).1 (apart (by decide) (by decide))
  · rw [word?_eq_none (apart (by decide) (by decide)) (apart (by decide) (by decide))
      (apart (by decide) (by decide)), read]
    rfl

theorem tree?_string {raw : Text} (written : Written raw) (bound : Nat) (rest : Text) :
    tree? (bound + 1) (Tree.quote raw ++ rest) = some (.string raw, rest) := by
  have read := scan_of_written written rest
  simp [tree?, Tree.quote, skipBlanks_cons, isBlank, read]

/-- A tree begins with a character that is no blank and no end of an array. -/
theorem exists_head_of_layout : ∀ {t : Tree} {s : Text}, t.Proper → t.Layout s →
    ∃ c more, s = c :: more ∧ isBlank c = false ∧ c ≠ ']'
  | .null, _, _, layout => ⟨_, _, layout, rfl, by decide⟩
  | .bool true, _, _, layout => ⟨_, _, layout, rfl, by decide⟩
  | .bool false, _, _, layout => ⟨_, _, layout, rfl, by decide⟩
  | .number _, _, proper, layout => by
      obtain ⟨c, more, shape, head⟩ := exists_head_numeral proper layout
      exact ⟨c, more, shape, isBlank_of_numeral_head head,
        ne_of_numeral_head head (by decide) (by decide)⟩
  | .string _, _, _, layout => ⟨_, _, layout, rfl, by decide⟩
  | .array _, _, _, ⟨_, _, shape⟩ => ⟨_, _, shape, rfl, by decide⟩
  | .object _, _, _, ⟨_, _, shape⟩ => ⟨_, _, shape, rfl, by decide⟩

/-- What begins with an item does not end an array. -/
theorem skipBlanks_items : ∀ {t : Tree} {more : List Tree} {body : Text}, t.Proper →
    Tree.ItemsLayout (t :: more) body → ∀ rest : Text,
      ∃ c after, skipBlanks (body ++ rest) = c :: after ∧ c ≠ ']' := by
  intro t more body proper layout rest
  have first : ∃ first other, Padded t.Layout first ∧ body = first ++ other := by
    cases more with
    | nil => exact ⟨body, [], layout, by simp⟩
    | cons next more =>
        obtain ⟨first, other, padded, -, shape⟩ := layout
        exact ⟨first, _, padded, shape⟩
  obtain ⟨_, other, ⟨before, core, gap, blanks, own, -, rfl⟩, rfl⟩ := first
  obtain ⟨c, after, rfl, visible, ne⟩ := exists_head_of_layout proper own
  refine ⟨c, after ++ (gap ++ (other ++ rest)), ?_, ne⟩
  simp only [List.append_assoc, List.cons_append]
  exact skipBlanks_append_cons blanks visible _

/-- Fields begin with the quote of a key. -/
theorem skipBlanks_fields : ∀ {field : Text × Tree} {more : List (Text × Tree)} {body : Text},
    Tree.FieldsLayout (field :: more) body → ∀ rest : Text,
      ∃ after, skipBlanks (body ++ rest) = '"' :: after := by
  intro (key, t) more body layout rest
  have first : ∃ name other, Padded (· = Tree.quote key) name ∧ body = name ++ other := by
    cases more with
    | nil =>
        obtain ⟨name, value, padded, -, shape⟩ := layout
        exact ⟨name, _, padded, shape⟩
    | cons next more =>
        obtain ⟨name, value, others, padded, -, -, shape⟩ := layout
        exact ⟨name, ':' :: value ++ ',' :: others, padded, by simp [shape]⟩
  obtain ⟨_, other, ⟨before, _, gap, blanks, rfl, -, rfl⟩, rfl⟩ := first
  refine ⟨key ++ ('"' :: (gap ++ (other ++ rest))), ?_⟩
  simp only [List.append_assoc, Tree.quote, List.cons_append, List.nil_append]
  exact skipBlanks_append_cons blanks rfl _

/-- Inside its brackets a text leaves more of the bound. -/
theorem length_lt_of_enclosed {body : Text} {front back : Char} {bound : Nat}
    (enough : 2 * (front :: body ++ [back]).length ≤ bound + 1) : 2 * body.length < bound := by
  simp only [List.length_append, List.length_cons, List.length_nil] at enough
  omega

/-- An array without items ends where the blanks behind its bracket do. -/
theorem tree?_array_nil {body : Text} (blanks : Blanks body) (bound : Nat) (rest : Text) :
    tree? (bound + 1) ('[' :: body ++ [']'] ++ rest) = some (.array [], rest) := by
  have close : skipBlanks (body ++ ']' :: rest) = ']' :: rest :=
    skipBlanks_append_cons blanks rfl rest
  simp [tree?, skipBlanks_cons, isBlank, close]

/-- An array with items is read item by item. -/
theorem tree?_array {body rest : Text} {items : List Tree} {bound : Nat}
    (filled : ∃ c after, skipBlanks (body ++ ']' :: rest) = c :: after ∧ c ≠ ']')
    (read : items? bound (body ++ ']' :: rest) = some (items, rest)) :
    tree? (bound + 1) ('[' :: body ++ [']'] ++ rest) = some (.array items, rest) := by
  obtain ⟨c, after, first, ne⟩ := filled
  have shape : '[' :: body ++ [']'] ++ rest = '[' :: (body ++ ']' :: rest) := by simp
  rw [shape, tree?, skipBlanks_cons rfl]
  simp only [first, read]
  split
  · next same => exact absurd (List.cons.inj same).1 ne
  · rfl

/-- An object without fields ends where the blanks behind its brace do. -/
theorem tree?_object_nil {body : Text} (blanks : Blanks body) (bound : Nat) (rest : Text) :
    tree? (bound + 1) ('{' :: body ++ ['}'] ++ rest) = some (.object [], rest) := by
  have close : skipBlanks (body ++ '}' :: rest) = '}' :: rest :=
    skipBlanks_append_cons blanks rfl rest
  simp [tree?, skipBlanks_cons, isBlank, close]

/-- An object with fields is read field by field. -/
theorem tree?_object {body rest : Text} {fields : List (Text × Tree)} {bound : Nat}
    (filled : ∃ after, skipBlanks (body ++ '}' :: rest) = '"' :: after)
    (read : fields? bound (body ++ '}' :: rest) = some (fields, rest)) :
    tree? (bound + 1) ('{' :: body ++ ['}'] ++ rest) = some (.object fields, rest) := by
  obtain ⟨after, first⟩ := filled
  simp [tree?, skipBlanks_cons, isBlank, first, read]

/-- Behind its name a field goes on with a colon and its value; then the object ends or another
field follows. -/
theorem fields?_of_name {key name : Text} (written : Written key)
    (padded : Padded (· = Tree.quote key) name) {bound : Nat} {rest after : Text} {t : Tree}
    (read : tree? bound rest = some (t, after)) :
    (∀ more, skipBlanks after = '}' :: more →
      fields? (bound + 1) (name ++ ':' :: rest) = some ([(key, t)], more)) ∧
    ∀ later others more, skipBlanks after = ',' :: later →
      fields? bound later = some (others, more) →
        fields? (bound + 1) (name ++ ':' :: rest) = some ((key, t) :: others, more) := by
  obtain ⟨before, _, gap, blanks, rfl, blanks', rfl⟩ := padded
  have colon : skipBlanks (gap ++ ':' :: rest) = ':' :: rest :=
    skipBlanks_append_cons blanks' rfl _
  have shape : before ++ Tree.quote key ++ gap ++ ':' :: rest =
      before ++ '"' :: (key ++ '"' :: (gap ++ ':' :: rest)) := by
    simp [Tree.quote]
  rw [shape, fields?, skipBlanks_append_cons blanks rfl]
  constructor
  · intro more close
    simp [scan_of_written written, colon, read, close]
  · intro later others more comma readLater
    simp [scan_of_written written, colon, read, comma, readLater]

mutual

/-- With a bound of twice the length a text of the tree is read as the tree, whatever follows that
no number can go on with. -/
theorem tree?_of_layout : ∀ {t : Tree} {s : Text}, t.Proper → t.Layout s → ∀ {bound : Nat},
    2 * s.length ≤ bound → ∀ rest : Text, Stops rest → tree? bound (s ++ rest) = some (t, rest)
  | t, s, proper, layout, 0, enough, _, _ => by
      -- No text of a tree is empty, so no bound of zero is enough.
      obtain ⟨c, more, rfl, -⟩ := exists_head_of_layout proper layout
      simp at enough
  | .null, _, _, rfl, _ + 1, _, _, _ => rfl
  | .bool true, _, _, rfl, _ + 1, _, _, _ => rfl
  | .bool false, _, _, rfl, _ + 1, _, _, _ => rfl
  | .number _, _, proper, layout, bound + 1, _, _, stops => tree?_number proper layout bound stops
  | .string _, _, written, rfl, bound + 1, _, rest, _ => tree?_string written bound rest
  | .array [], _, _, ⟨body, blanks, shape⟩, bound + 1, _, rest, _ => by
      subst shape
      exact tree?_array_nil blanks bound rest
  | .array (t :: more), _, proper, ⟨body, layout, shape⟩, bound + 1, enough, rest, _ => by
      subst shape
      have shorter := length_lt_of_enclosed enough
      have filled := skipBlanks_items proper.1 layout (']' :: rest)
      exact tree?_array filled (items?_of_layout proper layout shorter rest)
  | .object [], _, _, ⟨body, blanks, shape⟩, bound + 1, _, rest, _ => by
      subst shape
      exact tree?_object_nil blanks bound rest
  | .object (field :: more), _, proper, ⟨body, layout, shape⟩, bound + 1, enough, rest, _ => by
      subst shape
      have shorter := length_lt_of_enclosed enough
      have filled := skipBlanks_fields layout ('}' :: rest)
      exact tree?_object filled (fields?_of_layout proper layout shorter rest)

theorem items?_of_layout : ∀ {t : Tree} {more : List Tree} {body : Text},
    Tree.ItemsProper (t :: more) → Tree.ItemsLayout (t :: more) body → ∀ {bound : Nat},
      2 * body.length < bound → ∀ rest : Text,
        items? bound (body ++ ']' :: rest) = some (t :: more, rest)
  | _, _, _, _, _, 0, enough, _ => nomatch enough
  | t, [], _, ⟨proper, _⟩, ⟨before, core, gap, blanks, own, blanks', shape⟩, bound + 1, enough,
      rest => by
      subst shape
      have fits : 2 * core.length ≤ bound := by
        simp only [List.length_append] at enough
        omega
      have stops : Stops (']' :: rest) := stops_cons rest (by decide)
      have read := tree?_padded blanks blanks' stops (tree?_of_layout proper own fits)
      have close : skipBlanks (gap ++ ']' :: rest) = ']' :: rest :=
        skipBlanks_append_cons blanks' rfl _
      rw [items?, read]
      simp [close]
  | t, next :: more, _, ⟨proper, others⟩,
      ⟨_, later, ⟨before, core, gap, blanks, own, blanks', first⟩, layout, shape⟩,
      bound + 1, enough, rest => by
      subst first shape
      have fits : 2 * core.length ≤ bound ∧ 2 * later.length < bound := by
        simp only [List.length_append, List.length_cons] at enough
        omega
      have stops : Stops (',' :: (later ++ ']' :: rest)) := stops_cons _ (by decide)
      have read := tree?_padded blanks blanks' stops (tree?_of_layout proper own fits.1)
      have readLater := items?_of_layout others layout fits.2 rest
      have comma : skipBlanks (gap ++ ',' :: (later ++ ']' :: rest)) =
          ',' :: (later ++ ']' :: rest) := skipBlanks_append_cons blanks' rfl _
      rw [List.append_assoc, List.cons_append, items?, read]
      simp [comma, readLater]

theorem fields?_of_layout : ∀ {field : Text × Tree} {more : List (Text × Tree)} {body : Text},
    Tree.FieldsProper (field :: more) → Tree.FieldsLayout (field :: more) body → ∀ {bound : Nat},
      2 * body.length < bound → ∀ rest : Text,
        fields? bound (body ++ '}' :: rest) = some (field :: more, rest)
  | _, _, _, _, _, 0, enough, _ => nomatch enough
  | (key, t), [], _, ⟨written, proper, _⟩,
      ⟨_, _, name, ⟨before, core, gap, blanks, own, blanks', value⟩, shape⟩, bound + 1, enough,
      rest => by
      subst value shape
      have fits : 2 * core.length ≤ bound := by
        simp only [List.length_append, List.length_cons] at enough
        omega
      have stops : Stops ('}' :: rest) := stops_cons rest (by decide)
      have read := tree?_padded blanks blanks' stops (tree?_of_layout proper own fits)
      have close : skipBlanks (gap ++ '}' :: rest) = '}' :: rest :=
        skipBlanks_append_cons blanks' rfl _
      rw [List.append_assoc, List.cons_append]
      exact (fields?_of_name written name read).1 rest close
  | (key, t), next :: more, _, ⟨written, proper, others⟩,
      ⟨_, _, later, name, ⟨before, core, gap, blanks, own, blanks', value⟩, layout, shape⟩,
      bound + 1, enough, rest => by
      subst value shape
      have fits : 2 * core.length ≤ bound ∧ 2 * later.length < bound := by
        simp only [List.length_append, List.length_cons] at enough
        omega
      have stops : Stops (',' :: (later ++ '}' :: rest)) := stops_cons _ (by decide)
      have read := tree?_padded blanks blanks' stops (tree?_of_layout proper own fits.1)
      have readLater := fields?_of_layout others layout fits.2 rest
      have comma : skipBlanks (gap ++ ',' :: (later ++ '}' :: rest)) =
          ',' :: (later ++ '}' :: rest) := skipBlanks_append_cons blanks' rfl _
      simp only [List.append_assoc, List.cons_append] at read ⊢
      exact (fields?_of_name written name read).2 _ _ _ comma readLater

end

end Reader

/-- The tree of a whole text, with blanks around it. -/
theorem Tree.ofText?_of_layout {t : Tree} (proper : t.Proper) {s : Text}
    (layout : Padded t.Layout s) : Tree.ofText? s = some t := by
  obtain ⟨before, core, gap, blanks, own, blanks', rfl⟩ := layout
  have enough : 2 * core.length ≤ 2 * (before ++ core ++ gap).length + 2 := by
    simp only [List.length_append]
    omega
  have read := Reader.tree?_padded blanks blanks' stops_nil
    (Reader.tree?_of_layout proper own enough)
  simp only [List.append_nil] at read
  rw [Tree.ofText?, read]
  simp [skipBlanks_of_blanks blanks']

end Stencil.Json
