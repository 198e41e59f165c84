import Mathlib.Data.List.Basic

/-! # What must come between two things

In a sequence, `a`, `v` and `b` are kinds of elements; a `b` after an `a` needs a `v` in
between. What a sequence does with the `a`s before it and leaves for the `b`s after it is
enough to put sequences together.
-/

namespace Foundation

variable {ε δ : Type}

/-- There is a `b` with no `v` before it. -/
def Early (v b : ε → Prop) : List ε → Prop
  | [] => False
  | x :: rest => b x ∨ ¬ v x ∧ Early v b rest

/-- There is an `a` with no `v` after it. -/
def Pending (a v : ε → Prop) : List ε → Prop
  | [] => False
  | x :: rest => a x ∧ (∀ y ∈ rest, ¬ v y) ∨ Pending a v rest

/-- Between an `a` and a later `b` there is a `v`. -/
def Separated (a v b : ε → Prop) : List ε → Prop
  | [] => True
  | x :: rest => (a x → ¬ Early v b rest) ∧ Separated a v b rest

variable {a v b : ε → Prop}

theorem early_iff_split {l : List ε} : Early v b l ↔
    ∃ before y after, l = before ++ y :: after ∧ b y ∧ ∀ z ∈ before, ¬ v z := by
  induction l with
  | nil => simp [Early]
  | cons x rest ih =>
      rw [Early, ih]
      constructor
      · rintro (now | ⟨other, before, y, after, rfl, later, clear⟩)
        · exact ⟨[], x, rest, rfl, now, nofun⟩
        · refine ⟨x :: before, y, after, rfl, later, ?_⟩
          simpa using ⟨other, clear⟩
      · rintro ⟨before, y, after, split, later, clear⟩
        cases before with
        | nil =>
            obtain ⟨rfl, rfl⟩ := List.cons.inj split
            exact Or.inl later
        | cons z before =>
            obtain ⟨rfl, rfl⟩ := List.cons.inj split
            rw [List.forall_mem_cons] at clear
            exact Or.inr ⟨clear.1, before, y, after, rfl, later, clear.2⟩

theorem separated_iff_split {l : List ε} : Separated a v b l ↔
    ∀ before x between y after, l = before ++ x :: (between ++ y :: after) → a x → b y →
      ∃ z ∈ between, v z := by
  induction l with
  | nil => simp [Separated]
  | cons w rest ih =>
      rw [Separated, ih, early_iff_split]
      constructor
      · rintro ⟨head, tail⟩ before x between y after split isA isB
        cases before with
        | nil =>
            obtain ⟨rfl, rfl⟩ := List.cons.inj split
            by_contra none
            push Not at none
            exact head isA ⟨between, y, after, rfl, isB, none⟩
        | cons z before =>
            obtain ⟨rfl, rfl⟩ := List.cons.inj split
            exact tail before x between y after rfl isA isB
      · intro all
        constructor
        · rintro isA ⟨between, y, after, rfl, isB, clear⟩
          obtain ⟨z, member, isV⟩ := all [] w between y after rfl isA isB
          exact clear z member isV
        · rintro before x between y after rfl isA isB
          exact all (w :: before) x between y after rfl isA isB

theorem early_append {xs ys : List ε} :
    Early v b (xs ++ ys) ↔ Early v b xs ∨ (∀ x ∈ xs, ¬ v x) ∧ Early v b ys := by
  induction xs with
  | nil => simp [Early]
  | cons x xs ih =>
      rw [List.cons_append, Early, ih, Early, List.forall_mem_cons]
      tauto

theorem separated_append {xs ys : List ε} : Separated a v b (xs ++ ys) ↔
    Separated a v b xs ∧ Separated a v b ys ∧ ¬ (Pending a v xs ∧ Early v b ys) := by
  induction xs with
  | nil => simp [Separated, Pending]
  | cons x xs ih =>
      rw [List.cons_append, Separated, ih, early_append, Separated, Pending]
      tauto

theorem early_iff {l : List ε} (none : ∀ x ∈ l, ¬ v x) : Early v b l ↔ ∃ x ∈ l, b x := by
  induction l with
  | nil => simp [Early]
  | cons x rest ih =>
      rw [List.forall_mem_cons] at none
      simp [Early, ih none.2, none.1]

theorem pending_iff {l : List ε} (none : ∀ x ∈ l, ¬ v x) : Pending a v l ↔ ∃ x ∈ l, a x := by
  induction l with
  | nil => simp [Pending]
  | cons x rest ih =>
      rw [List.forall_mem_cons] at none
      simp [Pending, ih none.2, and_iff_left none.2]

/-- After a `v` nothing is pending. -/
theorem not_pending_snoc {l : List ε} {x : ε} (isV : v x) (notA : ¬ a x) :
    ¬ Pending a v (l ++ [x]) := by
  induction l with
  | nil => simp [Pending, notA]
  | cons y l ih =>
      rw [List.cons_append, Pending, not_or]
      refine ⟨?_, ih⟩
      rintro ⟨_, clear⟩
      exact clear x (List.mem_append_right _ List.mem_cons_self) isV

theorem separated_of_no_first {l : List ε} (none : ∀ x ∈ l, ¬ a x) : Separated a v b l := by
  induction l with
  | nil => trivial
  | cons x rest ih =>
      rw [List.forall_mem_cons] at none
      exact ⟨fun isA => absurd isA none.1, ih none.2⟩

theorem separated_of_no_last {l : List ε} (none : ∀ x ∈ l, ¬ b x) : Separated a v b l := by
  induction l with
  | nil => trivial
  | cons x rest ih =>
      rw [List.forall_mem_cons] at none
      refine ⟨?_, ih none.2⟩
      intro _ early
      obtain ⟨before, y, after, rfl, isB, _⟩ := early_iff_split.mp early
      exact none.2 y (List.mem_append_right _ List.mem_cons_self) isB

theorem separated_congr {a' : ε → Prop} {l : List ε} (first : ∀ x ∈ l, a x ↔ a' x) :
    Separated a v b l ↔ Separated a' v b l := by
  induction l with
  | nil => rfl
  | cons x rest ih =>
      rw [List.forall_mem_cons] at first
      rw [Separated, Separated, first.1, ih first.2]

theorem early_map {v b : δ → Prop} {f : ε → δ} {l : List ε} :
    Early v b (l.map f) ↔ Early (fun x => v (f x)) (fun x => b (f x)) l := by
  induction l with
  | nil => rfl
  | cons x rest ih => rw [List.map_cons, Early, Early, ih]

theorem separated_map {a v b : δ → Prop} {f : ε → δ} {l : List ε} :
    Separated a v b (l.map f) ↔
      Separated (fun x => a (f x)) (fun x => v (f x)) (fun x => b (f x)) l := by
  induction l with
  | nil => rfl
  | cons x rest ih => rw [List.map_cons, Separated, Separated, ih, early_map]

end Foundation
