import MvsGateway.Proofs.Catalog.Text

/-!
# What a change of the catalog can do

For each operation the list of its outcomes: refused with the catalog as it
was, or accepted with the one change that it makes. Only a write has a third
outcome, refused with the member that it opened left behind.
-/

namespace MvsGateway.Host.Catalog

/-- The contents of a data set that has just been allocated. -/
def freshContents (a : Attributes) : Contents :=
  if a.isPartitioned then .partitioned .empty else .sequential ""

theorem create_cases (c : Catalog) (dsn : String) (a : Attributes) :
    (∃ e, c.create dsn a = (.error e, c)) ∨
      ((Dsn.ofText dsn).member = none ∧ nameFault? (Dsn.ofText dsn).name = none ∧
        c.entries.get? (Dsn.ofText dsn).name = none ∧
        c.create dsn a = (.ok (), ⟨c.entries.insert (Dsn.ofText dsn).name
          ⟨allocated a, volume, freshContents (allocated a)⟩⟩)) := by
  simp only [create]
  generalize Dsn.ofText dsn = t
  obtain ⟨name, member⟩ := t
  cases member with
  | some member => exact .inl ⟨.invalid .memberInAllocation, by simp⟩
  | none =>
    cases hfault : nameFault? name with
    | some fault => exact .inl ⟨.invalid fault, by simp⟩
    | none =>
      cases hentry : c.entries.get? name with
      | some d =>
        refine .inl ⟨.alreadyExists .dataSet name, ?_⟩
        simp [Table.contains, hentry]
      | none =>
        refine .inr ⟨rfl, rfl, rfl, ?_⟩
        simp [Table.contains, hentry, freshContents]

theorem createMember_cases (c : Catalog) (dsn : String) :
    (∃ e, c.createMember dsn = (.error e, c)) ∨
      ∃ d members member, member ≠ "" ∧ (Dsn.ofText dsn).member = some member ∧
        c.entries.get? (Dsn.ofText dsn).name = some d ∧ d.contents = .partitioned members ∧
        members.get? member = none ∧
        c.createMember dsn = (.ok (), c.setContents (Dsn.ofText dsn).name d
          (.partitioned (members.insert member ""))) := by
  unfold createMember
  generalize Dsn.ofText dsn = t
  obtain ⟨name, member⟩ := t
  simp only
  split
  · exact .inl ⟨_, rfl⟩
  · exact .inl ⟨_, rfl⟩
  · rename_i member hne
    cases hd : c.entries.get? name with
    | none =>
      rw [find_of_absent hd]
      exact .inl ⟨_, rfl⟩
    | some d =>
      rw [find_of_entry hd]
      cases hcontents : d.contents with
      | sequential text => exact .inl ⟨.invalid (.notPartitioned name), by simp only [hcontents]⟩
      | partitioned members =>
        cases hheld : members.get? member with
        | some text =>
          refine .inl ⟨.alreadyExists .member (Dsn.text ⟨name, some member⟩), ?_⟩
          simp [hcontents, Table.contains, hheld]
        | none =>
          refine .inr ⟨d, members, member, hne, rfl, rfl, hcontents, hheld, ?_⟩
          simp [hcontents, Table.contains, hheld]

theorem delete_cases (c : Catalog) (dsn : String) :
    (∃ e, c.delete dsn = (.error e, c)) ∨
      (∃ d, (Dsn.ofText dsn).member = none ∧ c.entries.get? (Dsn.ofText dsn).name = some d ∧
        c.delete dsn = (.ok (), ⟨c.entries.erase (Dsn.ofText dsn).name⟩)) ∨
      ∃ d members member text, (Dsn.ofText dsn).member = some member ∧
        c.entries.get? (Dsn.ofText dsn).name = some d ∧ d.contents = .partitioned members ∧
        members.get? member = some text ∧
        c.delete dsn = (.ok (), c.setContents (Dsn.ofText dsn).name d
          (.partitioned (members.erase member))) := by
  simp only [delete]
  generalize Dsn.ofText dsn = t
  obtain ⟨name, member⟩ := t
  cases hd : c.entries.get? name with
  | none =>
    rw [find_of_absent hd]
    exact .inl ⟨_, rfl⟩
  | some d =>
    rw [find_of_entry hd]
    cases member with
    | none => exact .inr (.inl ⟨d, rfl, rfl, rfl⟩)
    | some member =>
      cases hcontents : d.contents with
      | sequential text => exact .inl ⟨.invalid (.notPartitioned name), by simp only [hcontents]⟩
      | partitioned members =>
        cases hheld : members.get? member with
        | none =>
          refine .inl ⟨.notFound .member (Dsn.text ⟨name, some member⟩), ?_⟩
          simp [hcontents, Table.contains, hheld]
        | some text =>
          refine .inr (.inr ⟨d, members, member, text, rfl, rfl, hcontents, hheld, ?_⟩)
          simp [hcontents, Table.contains, hheld]

/-- A write meets an address that it cannot use, a text with another tag, no
text and a tag that is not that of an empty one, or nothing in its way. -/
theorem write_cases (c : Catalog) (dsn data etag : String) :
    (∃ e, c.write dsn data etag = (.error e, c) ∧
      (c.access (Dsn.ofText dsn) = .error e ∨ (c.text? (Dsn.ofText dsn)).isSome)) ∨
      (c.access (Dsn.ofText dsn) = .ok () ∧ c.text? (Dsn.ofText dsn) = none ∧
        etag ≠ "" ∧ etag ≠ contentTag "" ∧
        c.write dsn data etag = (.error (.etagMismatch dsn etag (contentTag "")),
          c.putText (Dsn.ofText dsn) "")) ∨
      (c.access (Dsn.ofText dsn) = .ok () ∧
        (etag = "" ∨ contentTag ((c.text? (Dsn.ofText dsn)).getD "") = etag) ∧
        c.write dsn data etag = (.ok (contentTag data), c.putText (Dsn.ofText dsn) data)) := by
  -- The address decides first, then the tag, and only a refused tag asks what was there.
  rw [write_eq]
  cases haccess : c.access (Dsn.ofText dsn) with
  | error e => exact .inl ⟨e, rfl, .inl rfl⟩
  | ok =>
    cases htag : checkTag dsn etag ((c.text? (Dsn.ofText dsn)).getD "") with
    | ok => exact .inr (.inr ⟨rfl, checkTag_eq_ok_iff.1 htag, rfl⟩)
    | error e =>
      obtain ⟨hexpected, hstale, rfl⟩ := checkTag_eq_error_iff.1 htag
      cases htext : c.text? (Dsn.ofText dsn) with
      | some text => exact .inl ⟨.etagMismatch dsn etag (contentTag text), by simp, .inr rfl⟩
      | none =>
        rw [htext] at hstale
        exact .inr (.inl ⟨rfl, rfl, hexpected, Ne.symm hstale, by simp⟩)

end MvsGateway.Host.Catalog
