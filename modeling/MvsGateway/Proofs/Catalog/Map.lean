import MvsGateway.Proofs.Catalog.Reading
import MvsGateway.Proofs.DataSetName
import MvsGateway.Proofs.Run

/-!
# The catalog as a map

A catalog that calls have built holds canonical names alone: those that the
host accepts, in upper case, and members in upper case. Such a catalog is a
map from addresses to texts. Each change is seen at the addresses that it
names, however they are written, and the listing of a partitioned data set is
the list of the members that can be read.
-/

namespace MvsGateway.Host

/-! ## Canonical names -/

/-- The members of a data set are in upper case. -/
structure Contents.IsCanonical (c : Contents) : Prop where
  member : ∀ member text, c.text? (some member) = some text → Text.upper member = member

/-- Every name is one that the host accepts, in upper case, and so are the
members. -/
structure Catalog.IsCanonical (c : Catalog) : Prop where
  name : ∀ name d, c.entries.get? name = some d → nameFault? name = none ∧ Text.upper name = name
  contents : ∀ name d, c.entries.get? name = some d → d.contents.IsCanonical

namespace Contents

theorem isCanonical_sequential (text : String) : (sequential text).IsCanonical := ⟨nofun⟩

theorem isCanonical_put {c : Contents} {name : String} {member : Option String}
    (h : c.IsCanonical) (hcheck : c.check name member = .ok ())
    (hmember : ∀ m, member = some m → Text.upper m = m) (text : String) :
    (c.put member text).IsCanonical := by
  constructor
  intro other held hheld
  rw [text?_put hcheck] at hheld
  by_cases hsame : some other = member
  · exact hmember other hsame.symm
  · rw [if_neg hsame] at hheld
    exact h.member other held hheld

theorem isCanonical_erase {members : Table String String} (h : (partitioned members).IsCanonical)
    (member : String) : (partitioned (members.erase member)).IsCanonical := by
  constructor
  intro other held hheld
  have herase : (members.erase member).get? other = some held := hheld
  exact h.member other held (Table.of_get?_erase herase).2

end Contents

namespace Catalog

theorem isCanonical_empty : empty.IsCanonical := by
  have habsent : ∀ name d, empty.entries.get? name ≠ some d := by
    intro name d h
    cases h
  exact ⟨fun name d h => absurd h (habsent name d), fun name d h => absurd h (habsent name d)⟩

theorem isCanonical_insert {c : Catalog} {name : String} {d : DataSet} (h : c.IsCanonical)
    (hname : nameFault? name = none ∧ Text.upper name = name) (hd : d.contents.IsCanonical) :
    IsCanonical ⟨c.entries.insert name d⟩ := by
  constructor
  · intro other e he
    rcases Table.of_get?_insert he with ⟨rfl, _⟩ | ⟨_, hold⟩
    · exact hname
    · exact h.name other e hold
  · intro other e he
    rcases Table.of_get?_insert he with ⟨_, rfl⟩ | ⟨_, hold⟩
    · exact hd
    · exact h.contents other e hold

theorem isCanonical_erase {c : Catalog} (h : c.IsCanonical) (name : String) :
    IsCanonical ⟨c.entries.erase name⟩ where
  name other e he := h.name other e (Table.of_get?_erase he).2
  contents other e he := h.contents other e (Table.of_get?_erase he).2

theorem isCanonical_putText {c : Catalog} {dsn : String} (h : c.IsCanonical)
    (haccess : c.access (Dsn.ofText dsn) = .ok ()) (text : String) :
    (c.putText (Dsn.ofText dsn) text).IsCanonical := by
  obtain ⟨d, hd, hcheck⟩ := access_eq_ok_iff.1 haccess
  have hcontents :=
    Contents.isCanonical_put (h.contents _ d hd) hcheck (Dsn.upper_ofText dsn).2 text
  simp only [putText, hd, setContents]
  exact isCanonical_insert h (h.name _ d hd) hcontents

theorem isCanonical_freshContents (a : Attributes) : (freshContents a).IsCanonical := by
  unfold freshContents
  split
  · exact ⟨nofun⟩
  · exact Contents.isCanonical_sequential ""

theorem isCanonical_kept : Kept IsCanonical where
  write c dsn data etag h := by
    rcases c.write_cases dsn data etag with
      ⟨_, hr, _⟩ | ⟨haccess, _, _, _, hr⟩ | ⟨haccess, _, hr⟩
    · rw [hr]
      exact h
    · rw [hr]
      exact isCanonical_putText h haccess ""
    · rw [hr]
      exact isCanonical_putText h haccess data
  create c dsn attributes h := by
    rcases c.create_cases dsn attributes with ⟨_, hr⟩ | ⟨_, hfault, _, hr⟩
    · rw [hr]
      exact h
    · have hfresh := isCanonical_freshContents (allocated attributes)
      generalize freshContents (allocated attributes) = contents at hr hfresh
      rw [hr]
      exact isCanonical_insert h ⟨hfault, (Dsn.upper_ofText dsn).1⟩ hfresh
  createMember c dsn h := by
    rcases c.createMember_cases dsn with ⟨_, hr⟩ | ⟨d, members, member, _, hm, hd, hc, _, hr⟩
    · rw [hr]
      exact h
    · rw [hr]
      refine isCanonical_insert h (h.name _ d hd) ?_
      have hmembers := h.contents _ d hd
      rw [hc] at hmembers
      -- The member is the one of an address, which is in upper case.
      have hupper : ∀ m, some member = some m → Text.upper m = m := by
        rw [← hm]
        exact (Dsn.upper_ofText dsn).2
      have hcheck : (Contents.partitioned members).check (Dsn.ofText dsn).name (some member) =
        .ok () := rfl
      exact Contents.isCanonical_put hmembers hcheck hupper ""
  delete c dsn h := by
    rcases c.delete_cases dsn with
      ⟨_, hr⟩ | ⟨_, _, _, hr⟩ | ⟨d, members, member, _, _, hd, hc, _, hr⟩
    · rw [hr]
      exact h
    · rw [hr]
      exact isCanonical_erase h _
    · rw [hr]
      refine isCanonical_insert h (h.name _ d hd) ?_
      have hmembers := h.contents _ d hd
      rw [hc] at hmembers
      exact Contents.isCanonical_erase hmembers member

end Catalog

theorem Machine.isCanonical_catalog (user : String) (history : List (String × Call)) :
    ((Machine.initial user).after history).catalog.IsCanonical :=
  Machine.after_keeps_catalog Catalog.isCanonical_kept Catalog.isCanonical_empty history

/-! ## Changes and reads -/

namespace Catalog

/-- The host's choices do not change what a data set holds. -/
theorem isPartitioned_allocated (a : Attributes) :
    (allocated a).isPartitioned = a.isPartitioned := by
  unfold Attributes.isPartitioned allocated
  cases a.dsorg with
  | none => rfl
  | some dsorg => simp

/-- What the listing of a data set says about its members. -/
structure ListsMembers (c : Catalog) (dsn : String) (names : List String) : Prop where
  listed : c.members dsn = .ok (names.map fun name => { name := some name })
  ascending : names.Pairwise (· < ·)
  upper : ∀ name ∈ names, Text.upper name = name
  readable : ∀ name, Text.upper name ∈ names ↔
    ∃ text, c.read ((Dsn.ofText dsn).name ++ "(" ++ name ++ ")") = .ok text

/-- A map from addresses to texts: an accepted change decides what is read at
the addresses that it names, and nothing else. -/
structure IsMap (c : Catalog) : Prop where
  write : ∀ a data etag tag next, c.write a data etag = (.ok tag, next) →
    ∀ b, next.read b = if Dsn.ofText b = Dsn.ofText a then .ok data else c.read b
  create_other : ∀ a attributes next, c.create a attributes = (.ok (), next) →
    ∀ b, (Dsn.ofText b).name ≠ (Dsn.ofText a).name → next.read b = c.read b
  create_sequential : ∀ a attributes next, c.create a attributes = (.ok (), next) →
    ∀ b, (Dsn.ofText b).name = (Dsn.ofText a).name → (Dsn.ofText b).member = none →
      attributes.isPartitioned = false → next.read b = .ok ""
  create_partitioned : ∀ a attributes next, c.create a attributes = (.ok (), next) →
    ∀ b, (Dsn.ofText b).name = (Dsn.ofText a).name → (Dsn.ofText b).member = none →
      attributes.isPartitioned = true → ∃ e, next.read b = .error e
  create_member : ∀ a attributes next, c.create a attributes = (.ok (), next) →
    ∀ b, (Dsn.ofText b).name = (Dsn.ofText a).name → (Dsn.ofText b).member ≠ none →
      ∃ e, next.read b = .error e
  createMember : ∀ a next, c.createMember a = (.ok (), next) →
    ∀ b, next.read b = if Dsn.ofText b = Dsn.ofText a then .ok "" else c.read b
  delete_dataSet : ∀ a next, c.delete a = (.ok (), next) → (Dsn.ofText a).member = none →
    ∀ b, (Dsn.ofText b).name = (Dsn.ofText a).name →
      ∃ kind name, next.read b = .error (.notFound kind name)
  delete_dataSet_other : ∀ a next, c.delete a = (.ok (), next) → (Dsn.ofText a).member = none →
    ∀ b, (Dsn.ofText b).name ≠ (Dsn.ofText a).name → next.read b = c.read b
  delete_member : ∀ a next, c.delete a = (.ok (), next) → (Dsn.ofText a).member ≠ none →
    ∀ b, Dsn.ofText b = Dsn.ofText a → ∃ kind name, next.read b = .error (.notFound kind name)
  delete_member_other : ∀ a next, c.delete a = (.ok (), next) → (Dsn.ofText a).member ≠ none →
    ∀ b, Dsn.ofText b ≠ Dsn.ofText a → next.read b = c.read b
  members : ∀ dsn d table, c.entries.get? (Dsn.ofText dsn).name = some d →
    d.contents = .partitioned table → ∃ names, c.ListsMembers dsn names

/-! A fresh data set has one text, an empty one, if it is sequential, and else
none. -/

theorem answer_fresh_sequential {a : Attributes} (h : a.isPartitioned = false) {t : Dsn}
    (hmember : t.member = none) : (freshContents a).answer t = .ok "" := by
  obtain ⟨name, member⟩ := t
  cases hmember
  simp only [freshContents, h]
  rfl

theorem answer_fresh_partitioned {a : Attributes} (h : a.isPartitioned = true) (t : Dsn) :
    ∃ e, (freshContents a).answer t = .error e := by
  obtain ⟨name, member⟩ := t
  simp only [freshContents, h]
  cases member with
  | none => exact ⟨.invalid (.memberRequired name), rfl⟩
  | some member => exact ⟨.notFound .member (Dsn.text ⟨name, some member⟩), rfl⟩

theorem answer_fresh_member (a : Attributes) {t : Dsn} (hmember : t.member ≠ none) :
    ∃ e, (freshContents a).answer t = .error e := by
  cases h : a.isPartitioned with
  | true => exact answer_fresh_partitioned h t
  | false =>
    obtain ⟨name, member⟩ := t
    simp only [freshContents, h]
    cases member with
    | none => exact absurd rfl hmember
    | some member => exact ⟨.invalid (.notPartitioned name), rfl⟩

theorem read_member {c : Catalog} {b name member : String} {d : DataSet}
    {table : Table String String} (hb : Dsn.ofText b = ⟨name, some member⟩)
    (hd : c.entries.get? name = some d) (hcontents : d.contents = .partitioned table)
    (text : String) : c.read b = .ok text ↔ table.get? member = some text := by
  have htext : c.text? ⟨name, some member⟩ = table.get? member := by
    rw [text?_of_entry (t := ⟨name, some member⟩) hd, hcontents]
    rfl
  rw [read_eq_ok_iff, hb, htext]

theorem listsMembers {c : Catalog} {dsn : String} {d : DataSet} {table : Table String String}
    (h : c.IsCanonical) (hd : c.entries.get? (Dsn.ofText dsn).name = some d)
    (hcontents : d.contents = .partitioned table) : c.ListsMembers dsn table.keys := by
  obtain ⟨hfault, hupper⟩ := h.name _ d hd
  have hcanonical := h.contents _ d hd
  rw [hcontents] at hcanonical
  constructor
  · exact members_eq_ok_iff.2 ⟨d, table, hd, hcontents, rfl⟩
  · exact table.keys_ascending
  · intro name hname
    obtain ⟨text, hheld⟩ := Table.mem_keys_iff.1 hname
    exact hcanonical.member name text hheld
  · intro name
    have haddress := Dsn.ofText_member hfault hupper name
    rw [Table.mem_keys_iff]
    exact exists_congr fun text => (read_member haddress hd hcontents text).symm

theorem isMap {c : Catalog} (h : c.IsCanonical) : c.IsMap where
  write _ _ _ _ _ hr b := read_write hr b
  create_other a attributes next hr b hname := by
    rw [read_create hr, if_neg hname]
  create_sequential a attributes next hr b hname hmember hflat := by
    have hkind := (isPartitioned_allocated attributes).trans hflat
    rw [read_create hr, if_pos hname, answer_fresh_sequential hkind hmember]
  create_partitioned a attributes next hr b hname _ hparts := by
    have hkind := (isPartitioned_allocated attributes).trans hparts
    rw [read_create hr, if_pos hname]
    exact answer_fresh_partitioned hkind (Dsn.ofText b)
  create_member a attributes next hr b hname hmember := by
    rw [read_create hr, if_pos hname]
    exact answer_fresh_member (allocated attributes) hmember
  createMember _ _ hr b := read_createMember hr b
  delete_dataSet a next hr hwhole b hname := by
    rw [read_delete_dataSet hr hwhole b, if_pos hname]
    exact ⟨.dataSet, _, rfl⟩
  delete_dataSet_other a next hr hwhole b hname := by
    rw [read_delete_dataSet hr hwhole b, if_neg hname]
  delete_member a next hr hinside b hsame := by
    obtain ⟨member, hmember⟩ := Option.ne_none_iff_exists'.1 hinside
    rw [read_delete_member hr hmember b, if_pos hsame]
    exact ⟨.member, _, rfl⟩
  delete_member_other a next hr hinside b hother := by
    obtain ⟨member, hmember⟩ := Option.ne_none_iff_exists'.1 hinside
    rw [read_delete_member hr hmember b, if_neg hother]
  members _ _ _ hd hcontents := ⟨_, listsMembers h hd hcontents⟩

end Catalog

/-- The catalog that any run of calls leaves is a map from addresses to
texts. -/
theorem Machine.catalog_isMap (user : String) (history : List (String × Call)) :
    ((Machine.initial user).after history).catalog.IsMap :=
  Catalog.isMap (Machine.isCanonical_catalog user history)

end MvsGateway.Host
