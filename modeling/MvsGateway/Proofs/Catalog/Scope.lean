import MvsGateway.Host.Machine
import MvsGateway.Proofs.Catalog.Reading

/-!
# What a call on a data set is about

A call that names a data set or a member is about this address and no other.
Its answer depends on nothing but the data set of that name, and texts outside
of the address are read as before, also where the call is refused.
-/

namespace MvsGateway.Host

/-- The address names the same data set as the other, and the same member if
the other names one. -/
structure Dsn.IsIn (b a : Dsn) : Prop where
  name : b.name = a.name
  member : a.member = none ∨ b.member = a.member

/-- The call is about the address alone. -/
structure Call.ActsOn (call : Call) (a : Dsn) : Prop where
  /-- What the host answers is decided by this one data set. -/
  answer : ∀ time (s u : Machine),
    u.catalog.entries.get? a.name = s.catalog.entries.get? a.name →
      (Machine.invoke time call u).1 = (Machine.invoke time call s).1
  /-- Any other address is read as before. -/
  others : ∀ time (s : Machine) (b : String), ¬(Dsn.ofText b).IsIn a →
    (Machine.invoke time call s).2.catalog.read b = s.catalog.read b

namespace Catalog

variable {c next : Catalog} {dsn : String}

/-! ## Answers -/

section Answers

variable (h : next.entries.get? (Dsn.ofText dsn).name = c.entries.get? (Dsn.ofText dsn).name)

include h

theorem find_congr : next.find (Dsn.ofText dsn).name = c.find (Dsn.ofText dsn).name := by
  unfold find
  rw [h]

theorem members_congr : next.members dsn = c.members dsn := by
  simp only [members, find_congr h]

theorem read_congr : next.read dsn = c.read dsn := by
  rw [read_eq, read_eq]
  exact answer_congr h

theorem write_fst_congr (data etag : String) :
    (next.write dsn data etag).1 = (c.write dsn data etag).1 := by
  have haccess : next.access (Dsn.ofText dsn) = c.access (Dsn.ofText dsn) := by
    unfold access
    rw [find_congr h]
  have htext : next.text? (Dsn.ofText dsn) = c.text? (Dsn.ofText dsn) := by
    unfold text?
    rw [h]
  rw [write_eq, write_eq, haccess, htext]
  cases c.access (Dsn.ofText dsn) with
  | error e => rfl
  | ok => cases checkTag dsn etag ((c.text? (Dsn.ofText dsn)).getD "") <;> rfl

theorem create_fst_congr (a : Attributes) : (next.create dsn a).1 = (c.create dsn a).1 := by
  have hcontains : next.entries.contains (Dsn.ofText dsn).name =
      c.entries.contains (Dsn.ofText dsn).name := by
    unfold Table.contains
    rw [h]
  simp only [create, hcontains]
  split
  · rfl
  · split
    · rfl
    · split <;> rfl

theorem createMember_fst_congr : (next.createMember dsn).1 = (c.createMember dsn).1 := by
  simp only [createMember, find_congr h]
  split
  · rfl
  · rfl
  · split
    · rfl
    · split
      · rfl
      · split <;> rfl

theorem delete_fst_congr : (next.delete dsn).1 = (c.delete dsn).1 := by
  simp only [delete, find_congr h]
  split
  · rfl
  · split
    · rfl
    · rfl
    · split <;> rfl

end Answers

/-! ## Other addresses -/

section Others

variable {b : String} (hb : ¬(Dsn.ofText b).IsIn (Dsn.ofText dsn))

include hb

theorem ofText_ne_of_not_isIn : Dsn.ofText b ≠ Dsn.ofText dsn := by
  intro hsame
  rw [hsame] at hb
  exact hb ⟨rfl, .inr rfl⟩

theorem name_ne_of_not_isIn (whole : (Dsn.ofText dsn).member = none) :
    (Dsn.ofText b).name ≠ (Dsn.ofText dsn).name :=
  fun hname => hb ⟨hname, .inl whole⟩

/-- A write that is refused may open its member, and no other. -/
theorem read_write_of_not_isIn (data etag : String) :
    (c.write dsn data etag).2.read b = c.read b := by
  have hput (haccess : c.access (Dsn.ofText dsn) = .ok ()) (text : String) :
      (c.putText (Dsn.ofText dsn) text).read b = c.read b := by
    rw [read_eq, read_eq, answer_putText haccess, if_neg (ofText_ne_of_not_isIn hb)]
  rcases c.write_cases dsn data etag with ⟨_, hr, _⟩ | ⟨haccess, _, _, _, hr⟩ | ⟨haccess, _, hr⟩
  · rw [hr]
  · rw [hr]
    exact hput haccess ""
  · rw [hr]
    exact hput haccess data

theorem read_create_of_not_isIn (a : Attributes) : (c.create dsn a).2.read b = c.read b := by
  rcases c.create_cases dsn a with ⟨_, hr⟩ | ⟨whole, _, _, hr⟩
  · rw [hr]
  · rw [hr]
    exact (read_create hr b).trans (if_neg (name_ne_of_not_isIn hb whole))

theorem read_createMember_of_not_isIn : (c.createMember dsn).2.read b = c.read b := by
  rcases c.createMember_cases dsn with ⟨_, hr⟩ | ⟨_, _, _, _, _, _, _, _, hr⟩
  · rw [hr]
  · rw [hr]
    exact (read_createMember hr b).trans (if_neg (ofText_ne_of_not_isIn hb))

theorem read_delete_of_not_isIn : (c.delete dsn).2.read b = c.read b := by
  rcases c.delete_cases dsn with ⟨_, hr⟩ | ⟨_, whole, _, hr⟩ | ⟨_, _, _, _, inside, _, _, _, hr⟩
  · rw [hr]
  · rw [hr]
    exact (read_delete_dataSet hr whole b).trans (if_neg (name_ne_of_not_isIn hb whole))
  · rw [hr]
    exact (read_delete_member hr inside b).trans (if_neg (ofText_ne_of_not_isIn hb))

end Others

end Catalog

/-! ## Calls -/

namespace Machine

/-- A change of the catalog is about an address if its answer and what it leaves
are. -/
theorem actsOn_of_change {α : Type} {call : Call} {a : Dsn} {output : α → Output}
    (change : Catalog → Except Error α × Catalog)
    (hcall : ∀ time s, invoke time call s = s.onCatalog output (change s.catalog))
    (hanswer : ∀ c next : Catalog, next.entries.get? a.name = c.entries.get? a.name →
      (change next).1 = (change c).1)
    (hothers : ∀ (c : Catalog) (b : String), ¬(Dsn.ofText b).IsIn a →
      (change c).2.read b = c.read b) : call.ActsOn a where
  answer time s u h := by
    rw [hcall, hcall, onCatalog_fst, onCatalog_fst, hanswer s.catalog u.catalog h]
  others time s b hb := by
    rw [hcall, onCatalog_snd]
    exact hothers s.catalog b hb

variable (dsn : String)

theorem listMembers_actsOn : (Call.listMembers dsn).ActsOn (Dsn.ofText dsn) where
  answer time s u h := by
    rw [invoke, invoke, Catalog.members_congr h]
  others _ _ _ _ := rfl

theorem readDataSet_actsOn (encoding : String) :
    (Call.readDataSet dsn encoding).ActsOn (Dsn.ofText dsn) where
  answer time s u h := by
    rw [invoke, invoke, Catalog.read_congr h]
  others _ _ _ _ := rfl

theorem writeDataSet_actsOn (data encoding etag : String) :
    (Call.writeDataSet dsn data encoding etag).ActsOn (Dsn.ofText dsn) :=
  actsOn_of_change (·.write dsn data etag) (fun _ _ => rfl)
    (fun _ _ h => Catalog.write_fst_congr h data etag)
    fun _ _ hb => Catalog.read_write_of_not_isIn hb data etag

theorem createMember_actsOn : (Call.createMember dsn).ActsOn (Dsn.ofText dsn) :=
  actsOn_of_change (·.createMember dsn) (fun _ _ => rfl)
    (fun _ _ h => Catalog.createMember_fst_congr h)
    fun _ _ hb => Catalog.read_createMember_of_not_isIn hb

theorem createDataSet_actsOn (attributes : Attributes) :
    (Call.createDataSet dsn attributes).ActsOn (Dsn.ofText dsn) :=
  actsOn_of_change (·.create dsn attributes) (fun _ _ => rfl)
    (fun _ _ h => Catalog.create_fst_congr h attributes)
    fun _ _ hb => Catalog.read_create_of_not_isIn hb attributes

theorem deleteDataSet_actsOn : (Call.deleteDataSet dsn).ActsOn (Dsn.ofText dsn) :=
  actsOn_of_change (·.delete dsn) (fun _ _ => rfl) (fun _ _ h => Catalog.delete_fst_congr h)
    fun _ _ hb => Catalog.read_delete_of_not_isIn hb

end Machine

end MvsGateway.Host
