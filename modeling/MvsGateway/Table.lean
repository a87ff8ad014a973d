/-!
# Ordered tables

A table keeps one value for each of finitely many keys, in ascending order of
the keys. Two tables with the same entries are equal, and each operation is
described by what `get?` answers after it.
-/

namespace MvsGateway

/-- Entries with strictly ascending keys. -/
structure Table (κ : Type) (α : Type) [LT κ] where
  entries : List (κ × α)
  ascending : entries.Pairwise (fun a b => a.1 < b.1) := by simp

namespace Table

variable {κ α : Type} [LT κ]

instance [DecidableEq κ] [DecidableEq α] : DecidableEq (Table κ α) := fun a b =>
  decidable_of_iff (a.entries = b.entries) (by cases a; cases b; simp)

@[ext] theorem ext {t u : Table κ α} (h : t.entries = u.entries) : t = u := by
  cases t; cases u; simp_all

def empty : Table κ α := ⟨[], by simp⟩

instance : Inhabited (Table κ α) := ⟨empty⟩

def keys (t : Table κ α) : List κ := t.entries.map Prod.fst

theorem keys_ascending (t : Table κ α) : t.keys.Pairwise (· < ·) :=
  List.pairwise_map.2 t.ascending

/-- The entries that satisfy `p`. -/
def filter (p : κ → α → Bool) (t : Table κ α) : Table κ α :=
  ⟨t.entries.filter fun e => p e.1 e.2, t.ascending.filter _⟩

/-- Each value replaced by its image, the keys as they are. -/
def mapValues (f : κ → α → α) (t : Table κ α) : Table κ α :=
  ⟨t.entries.map fun e => (e.1, f e.1 e.2), List.pairwise_map.2 t.ascending⟩

variable [DecidableEq κ]

/-- The value in a list of entries under a key. -/
def find (k : κ) : List (κ × α) → Option α
  | [] => none
  | (j, a) :: r => if j = k then some a else find k r

def get? (t : Table κ α) (k : κ) : Option α := find k t.entries

def contains (t : Table κ α) (k : κ) : Bool := (t.get? k).isSome

def erase (t : Table κ α) (k : κ) : Table κ α := t.filter fun j _ => j ≠ k

omit [LT κ] in
theorem find_filter {p : κ → Bool} (l : List (κ × α)) (k : κ) :
    find k (l.filter fun e => p e.1) = if p k then find k l else none := by
  induction l with
  | nil => simp [find]
  | cons x r ih =>
    obtain ⟨j, b⟩ := x
    by_cases hj : j = k
    · subst hj
      cases hp : p j <;> simp_all [find]
    · cases hp : p j <;> simp_all [find]

@[simp] theorem get?_empty (k : κ) : (empty : Table κ α).get? k = none := rfl

theorem get?_filter (p : κ → Bool) (t : Table κ α) (k : κ) :
    (t.filter fun j _ => p j).get? k = if p k then t.get? k else none :=
  find_filter t.entries k

@[simp] theorem get?_erase (t : Table κ α) (k j : κ) :
    (t.erase k).get? j = if j = k then none else t.get? j := by
  have h := get?_filter (fun i => decide (i ≠ k)) t j
  by_cases hj : j = k <;> simp_all [erase]

/-- What an erased table still has. -/
theorem of_get?_erase {t : Table κ α} {k j : κ} {a : α} (h : (t.erase k).get? j = some a) :
    j ≠ k ∧ t.get? j = some a := by
  rw [get?_erase] at h
  by_cases hj : j = k
  · rw [if_pos hj] at h
    cases h
  · rw [if_neg hj] at h
    exact ⟨hj, h⟩

@[simp] theorem get?_mapValues (f : κ → α → α) (t : Table κ α) (k : κ) :
    (t.mapValues f).get? k = (t.get? k).map (f k) := by
  obtain ⟨l, hl⟩ := t
  simp only [get?, mapValues]
  clear hl
  induction l with
  | nil => rfl
  | cons x r ih =>
    obtain ⟨j, b⟩ := x
    by_cases hj : j = k
    · subst hj
      simp [find]
    · simp [find, hj, ih]

variable [DecidableLT κ]

/-- Puts a value in its place in a list of entries. -/
def place (k : κ) (a : α) : List (κ × α) → List (κ × α)
  | [] => [(k, a)]
  | (j, b) :: r =>
    if j = k then (k, a) :: r
    else if k < j then (k, a) :: (j, b) :: r
    else (j, b) :: place k a r

theorem mem_place {k : κ} {a : α} {l : List (κ × α)} {e : κ × α} (h : e ∈ place k a l) :
    e = (k, a) ∨ e ∈ l := by
  induction l with
  | nil => simpa [place] using h
  | cons x r ih =>
    obtain ⟨j, b⟩ := x
    simp only [place] at h
    split at h
    · rcases List.mem_cons.1 h with h | h
      · exact .inl h
      · exact .inr (List.mem_cons_of_mem _ h)
    · split at h
      · simpa using h
      · rcases List.mem_cons.1 h with rfl | h
        · exact .inr List.mem_cons_self
        · rcases ih h with h | h
          · exact .inl h
          · exact .inr (List.mem_cons_of_mem _ h)

theorem find_place (k j : κ) (a : α) (l : List (κ × α)) :
    find j (place k a l) = if j = k then some a else find j l := by
  induction l with
  | nil => simp [place, find, eq_comm]
  | cons x r ih =>
    obtain ⟨i, b⟩ := x
    simp only [place]
    split
    · rename_i h
      subst h
      by_cases h : j = i
      · simp [find, h]
      · simp [find, h, Ne.symm h]
    · split
      · by_cases h : j = k
        · simp [find, h]
        · simp [find, h, Ne.symm h]
      · rename_i hik _
        by_cases h : j = k
        · subst h
          simp [find, hik, ih]
        · simp [find, ih, h]

variable [LE κ] [Std.LawfulOrderLT κ] [Std.IsLinearOrder κ]

theorem place_ascending {k : κ} {a : α} {l : List (κ × α)}
    (h : l.Pairwise (fun a b => a.1 < b.1)) :
    (place k a l).Pairwise (fun a b => a.1 < b.1) := by
  induction l with
  | nil => simp [place]
  | cons x r ih =>
    obtain ⟨j, b⟩ := x
    obtain ⟨hj, hr⟩ := List.pairwise_cons.1 h
    simp only [place]
    split
    · rename_i e
      subst e
      exact List.pairwise_cons.2 ⟨hj, hr⟩
    · rename_i hne
      split
      · rename_i hlt
        refine List.pairwise_cons.2 ⟨?_, h⟩
        intro e he
        rcases List.mem_cons.1 he with rfl | he
        · exact hlt
        · exact Std.lt_trans hlt (hj e he)
      · rename_i hnlt
        refine List.pairwise_cons.2 ⟨?_, ih hr⟩
        intro e he
        rcases mem_place he with rfl | he
        · exact Std.lt_of_le_of_ne (Std.not_lt.1 hnlt) hne
        · exact hj e he

/-- Sets the value of a key, which joins the table if it is not there. -/
def insert (t : Table κ α) (k : κ) (a : α) : Table κ α :=
  ⟨place k a t.entries, place_ascending t.ascending⟩

@[simp] theorem get?_insert (t : Table κ α) (k j : κ) (a : α) :
    (t.insert k a).get? j = if j = k then some a else t.get? j :=
  find_place k j a t.entries

/-- A value in a changed table is the new one, or it was there. -/
theorem of_get?_insert {t : Table κ α} {k j : κ} {a b : α} (h : (t.insert k a).get? j = some b) :
    j = k ∧ b = a ∨ j ≠ k ∧ t.get? j = some b := by
  rw [get?_insert] at h
  by_cases hj : j = k
  · rw [if_pos hj] at h
    exact .inl ⟨hj, (Option.some.inj h).symm⟩
  · rw [if_neg hj] at h
    exact .inr ⟨hj, h⟩

/-! ## Equality of tables -/

omit [DecidableLT κ] [Std.IsLinearOrder κ] in
theorem find_eq_some_iff {l : List (κ × α)} (hl : l.Pairwise (fun a b => a.1 < b.1)) {k : κ}
    {a : α} : find k l = some a ↔ (k, a) ∈ l := by
  induction l with
  | nil => simp [find]
  | cons x r ih =>
    obtain ⟨j, b⟩ := x
    obtain ⟨hj, hr⟩ := List.pairwise_cons.1 hl
    by_cases h : j = k
    · subst h
      have hnot : (j, a) ∉ r := fun hmem => Std.lt_irrefl (hj (j, a) hmem)
      simp [find, hnot, eq_comm]
    · have hne : ¬(k = j ∧ a = b) := fun hk => h hk.1.symm
      simp [find, h, ih hr, hne]

omit [DecidableLT κ] [Std.IsLinearOrder κ] in
theorem mem_keys_iff {t : Table κ α} {k : κ} : k ∈ t.keys ↔ ∃ a, t.get? k = some a := by
  unfold keys get?
  rw [List.mem_map]
  constructor
  · rintro ⟨⟨j, a⟩, hmem, rfl⟩
    exact ⟨a, (find_eq_some_iff t.ascending).2 hmem⟩
  · rintro ⟨a, h⟩
    exact ⟨(k, a), (find_eq_some_iff t.ascending).1 h, rfl⟩

omit [DecidableLT κ] [Std.IsLinearOrder κ] in
theorem find_eq_none_of_lt {l : List (κ × α)} {k : κ} (h : ∀ e ∈ l, k < e.1) :
    find k l = none := by
  induction l with
  | nil => rfl
  | cons e r ih =>
    have hne : e.1 ≠ k := fun he => Std.lt_irrefl (he ▸ h e List.mem_cons_self)
    simp [find, hne, ih fun e he => h e (List.mem_cons_of_mem _ he)]

omit [DecidableLT κ] in
/-- Two lists of entries in ascending order with the same value under each key
are the same list. -/
theorem entries_ext {l m : List (κ × α)} (hl : l.Pairwise (fun a b => a.1 < b.1))
    (hm : m.Pairwise (fun a b => a.1 < b.1)) (h : ∀ k, find k l = find k m) : l = m := by
  induction l generalizing m with
  | nil =>
    cases m with
    | nil => rfl
    | cons y r => simpa [find] using h y.1
  | cons x r ih =>
    cases m with
    | nil => simpa [find] using h x.1
    | cons y r' =>
      obtain ⟨j, b⟩ := x
      obtain ⟨i, c⟩ := y
      obtain ⟨hj, hr⟩ := List.pairwise_cons.1 hl
      obtain ⟨hi, hr'⟩ := List.pairwise_cons.1 hm
      have hjm : (j, b) ∈ (i, c) :: r' := by
        rw [← find_eq_some_iff hm, ← h, find_eq_some_iff hl]
        exact List.mem_cons_self
      have hil : (i, c) ∈ (j, b) :: r := by
        rw [← find_eq_some_iff hl, h, find_eq_some_iff hm]
        exact List.mem_cons_self
      -- Each head is in the other list, so neither can lie behind the other.
      have hhead : (j, b) = (i, c) := by
        rcases List.mem_cons.1 hjm with e | hjr
        · exact e
        · rcases List.mem_cons.1 hil with e | hir
          · exact e.symm
          · exact absurd (Std.lt_trans (hi _ hjr) (hj _ hir)) Std.lt_irrefl
      cases hhead
      have htail : ∀ k, find k r = find k r' := by
        intro k
        by_cases hk : j = k
        · subst hk
          rw [find_eq_none_of_lt hj, find_eq_none_of_lt hi]
        · simpa [find, hk] using h k
      rw [ih hr hr' htail]

omit [DecidableLT κ] in
theorem ext_get? {t u : Table κ α} (h : ∀ k, t.get? k = u.get? k) : t = u :=
  ext (entries_ext t.ascending u.ascending h)

theorem insert_eq_self {t : Table κ α} {k : κ} {a : α} (h : t.get? k = some a) :
    t.insert k a = t := by
  apply ext_get?
  intro j
  rw [get?_insert]
  split
  · rename_i hj
    rw [hj, h]
  · rfl

@[simp] theorem insert_insert (t : Table κ α) (k : κ) (a b : α) :
    (t.insert k a).insert k b = t.insert k b := by
  apply ext_get?
  intro j
  by_cases hj : j = k <;> simp [hj]

end Table

end MvsGateway
