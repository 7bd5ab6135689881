/-
# Stencil.Table -- tables in order of insertion

A table is the list of its rows, a key and what stands under it, the oldest row first, and is read
by `List.lookup`.  `Table.enter` goes to the row of a key, which it adds with a start value if there
is none, and lets a function update what stands there and give an answer.  Afterwards the key has
what the update made (`lookup_enter_self`), every other key what it had (`lookup_enter_of_ne`),
and no key has a second row if none had before (`nodup_keys_enter`).
-/

set_option autoImplicit false

namespace Stencil

/-- Rows of a key and what stands under it, the oldest first. -/
abbrev Table (κ β : Type) := List (κ × β)

namespace Table

variable {κ β γ : Type} [BEq κ] [LawfulBEq κ]

def keys (t : Table κ β) : List κ := t.map (·.1)

/-- Changes what stands under a key, which is `start` if nothing does, and returns the answer of
the update. -/
def enter (key : κ) (start : β) (update : β → γ × β) : Table κ β → γ × Table κ β
  | [] =>
      let (answer, b) := update start
      (answer, [(key, b)])
  | (k, b) :: more =>
      if k == key then
        let (answer, b) := update b
        (answer, (k, b) :: more)
      else
        let (answer, more) := enter key start update more
        (answer, (k, b) :: more)

variable (key : κ) (start : β) (update : β → γ × β)

theorem enter_cons_self (b : β) (more : Table κ β) :
    enter key start update ((key, b) :: more) = ((update b).1, (key, (update b).2) :: more) := by
  simp [enter]

theorem enter_cons_of_ne {k : κ} (h : k ≠ key) (b : β) (more : Table κ β) :
    enter key start update ((k, b) :: more) =
      ((enter key start update more).1, (k, b) :: (enter key start update more).2) := by
  simp [enter, beq_eq_false_iff_ne.2 h]

/-- The answer is that of the update of what stood under the key. -/
theorem enter_fst (t : Table κ β) :
    (enter key start update t).1 = (update ((t.lookup key).getD start)).1 := by
  induction t with
  | nil => rfl
  | cons row more ih =>
      obtain ⟨k, b⟩ := row
      by_cases h : k = key
      · subst h
        rw [enter_cons_self, List.lookup_cons_self, Option.getD_some]
      · have apart : (key == k) = false := beq_eq_false_iff_ne.2 (Ne.symm h)
        rw [enter_cons_of_ne key start update h, ih, List.lookup_cons, apart]

/-- The key has what the update made. -/
theorem lookup_enter_self (t : Table κ β) :
    (enter key start update t).2.lookup key = some (update ((t.lookup key).getD start)).2 := by
  induction t with
  | nil => simp [enter]
  | cons row more ih =>
      obtain ⟨k, b⟩ := row
      by_cases h : k = key
      · subst h
        rw [enter_cons_self, List.lookup_cons_self, List.lookup_cons_self, Option.getD_some]
      · have apart : (key == k) = false := beq_eq_false_iff_ne.2 (Ne.symm h)
        rw [enter_cons_of_ne key start update h, List.lookup_cons, apart, ih, List.lookup_cons,
          apart]

/-- Every other key has what it had. -/
theorem lookup_enter_of_ne {other : κ} (h : other ≠ key) (t : Table κ β) :
    (enter key start update t).2.lookup other = t.lookup other := by
  induction t with
  | nil => simp [enter, List.lookup_cons, beq_eq_false_iff_ne.2 h]
  | cons row more ih =>
      obtain ⟨k, b⟩ := row
      by_cases same : k = key
      · subst same
        have apart : (other == k) = false := beq_eq_false_iff_ne.2 h
        rw [enter_cons_self, List.lookup_cons, apart, List.lookup_cons, apart]
      · rw [enter_cons_of_ne key start update same, List.lookup_cons, ih, ← List.lookup_cons]

/-- The keys are those of before, and the key itself at the end if it is new. -/
theorem keys_enter (t : Table κ β) :
    keys (enter key start update t).2 = if key ∈ keys t then keys t else keys t ++ [key] := by
  induction t with
  | nil => simp [enter, keys]
  | cons row more ih =>
      obtain ⟨k, b⟩ := row
      by_cases h : k = key
      · subst h
        simp [enter_cons_self, keys]
      · have kept : keys ((k, b) :: more) = k :: keys more := rfl
        rw [enter_cons_of_ne key start update h, kept]
        simp only [List.mem_cons, Ne.symm h, false_or]
        change k :: keys (enter key start update more).2 = _
        rw [ih]
        split
        · rfl
        · rfl

/-- No key gets a second row. -/
theorem nodup_keys_enter {t : Table κ β} (h : (keys t).Nodup) :
    (keys (enter key start update t).2).Nodup := by
  rw [keys_enter]
  split
  · exact h
  · next absent =>
    refine List.nodup_append.2 ⟨h, by simp, fun k member last isLast => ?_⟩
    rw [List.mem_singleton.1 isLast]
    exact fun same => absent (same ▸ member)

/-- What stands in a row afterwards stood there before or was made by the update. -/
theorem mem_enter {t : Table κ β} {row : κ × β} (h : row ∈ (enter key start update t).2) :
    row ∈ t ∨ ∃ b, row = (key, (update b).2) ∧ (b = start ∨ (key, b) ∈ t) := by
  induction t with
  | nil =>
      obtain rfl : row = (key, (update start).2) := by simpa [enter] using h
      exact .inr ⟨start, rfl, .inl rfl⟩
  | cons first more ih =>
      obtain ⟨k, b⟩ := first
      by_cases same : k = key
      · subst same
        rw [enter_cons_self] at h
        rcases List.mem_cons.1 h with rfl | h
        · exact .inr ⟨b, rfl, .inr (List.mem_cons_self ..)⟩
        · exact .inl (List.mem_cons_of_mem _ h)
      · rw [enter_cons_of_ne key start update same] at h
        rcases List.mem_cons.1 h with rfl | h
        · exact .inl (List.mem_cons_self ..)
        · rcases ih h with h | ⟨b', e, h⟩
          · exact .inl (List.mem_cons_of_mem _ h)
          · exact .inr ⟨b', e, h.imp_right (List.mem_cons_of_mem _)⟩

/-- A key has a row exactly if looking it up finds something. -/
theorem mem_keys_iff (t : Table κ β) (k : κ) : k ∈ keys t ↔ (t.lookup k).isSome = true := by
  induction t with
  | nil => simp [keys]
  | cons row more ih =>
      obtain ⟨l, b⟩ := row
      by_cases h : k = l
      · subst h
        simp [keys]
      · have apart : (k == l) = false := beq_eq_false_iff_ne.2 h
        rw [List.lookup_cons, apart, ← ih]
        simp [keys, h]

/-- With one row for each key, looking a key up finds its row. -/
theorem lookup_of_mem {t : Table κ β} (once : (keys t).Nodup) {k : κ} {b : β} (h : (k, b) ∈ t) :
    t.lookup k = some b := by
  induction t with
  | nil => exact nomatch h
  | cons row more ih =>
      obtain ⟨l, b'⟩ := row
      obtain ⟨fresh, once⟩ := List.nodup_cons.1 once
      rcases List.mem_cons.1 h with same | h
      · obtain ⟨rfl, rfl⟩ := Prod.mk.inj same
        exact List.lookup_cons_self
      · have ne : k ≠ l := fun e => fresh (List.mem_map.2 ⟨(k, b), h, e⟩)
        rw [List.lookup_cons, beq_eq_false_iff_ne.2 ne, ih once h]

/-- What looking a key up finds stands in a row of the key. -/
theorem mem_of_lookup {t : Table κ β} {k : κ} {b : β} (h : t.lookup k = some b) : (k, b) ∈ t := by
  obtain ⟨before, after, rfl, -⟩ := List.lookup_eq_some_iff.1 h
  simp

end Table

end Stencil
