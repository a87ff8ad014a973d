import MvsGateway.Proofs.Catalog.Outcome

/-!
# Reading a changed catalog

What a read answers depends on the canonical address alone, and on the one
data set that has its name. So an accepted change is seen at the addresses
that it is about, and every other address answers as before.
-/

namespace MvsGateway.Host

/-- What a data set with these contents answers to a read of an address. -/
def Contents.answer (c : Contents) (t : Dsn) : Except Error String := do
  c.check t.name t.member
  match c.text? t.member with
  | some text => .ok text
  | none => .error (.notFound .member t.text)

namespace Contents

theorem answer_put {c : Contents} {name : String} {member : Option String}
    (h : c.check name member = .ok ()) (text : String) (u : Dsn) :
    (c.put member text).answer u = if u.member = member then .ok text else c.answer u := by
  obtain ⟨n, m⟩ := u
  cases c with
  | sequential held =>
    cases member with
    | some inner => cases h
    | none => cases m <;> rfl
  | partitioned members =>
    cases member with
    | none => cases h
    | some inner =>
      cases m with
      | none => rfl
      | some other =>
        by_cases hother : other = inner
        · simp [answer, put, check, text?, hother, bind, Except.bind]
        · simp [answer, put, check, text?, hother, bind, Except.bind]

theorem answer_erase (members : Table String String) (member : String) (u : Dsn) :
    (partitioned (members.erase member)).answer u =
      if u.member = some member then .error (.notFound .member u.text)
      else (partitioned members).answer u := by
  obtain ⟨n, m⟩ := u
  cases m with
  | none => rfl
  | some other =>
    by_cases hother : other = member
    · simp [answer, check, text?, hother, bind, Except.bind]
    · simp [answer, check, text?, hother, bind, Except.bind]

end Contents

namespace Catalog

/-- What a read of an address answers. -/
def answer (c : Catalog) (t : Dsn) : Except Error String := do (← c.find t.name).contents.answer t

theorem read_eq (c : Catalog) (dsn : String) : c.read dsn = c.answer (Dsn.ofText dsn) :=
  rfl

/-- The members are listed where a data set is partitioned, and nowhere else. -/
theorem members_eq_ok_iff {c : Catalog} {dsn : String} {entries : List MemberEntry} :
    c.members dsn = .ok entries ↔
      ∃ d table, c.entries.get? (Dsn.ofText dsn).name = some d ∧
        d.contents = .partitioned table ∧
        entries = table.keys.map fun name => { name := some name } := by
  cases hd : c.entries.get? (Dsn.ofText dsn).name with
  | none =>
    rw [members, find_of_absent hd]
    simp [bind, Except.bind]
  | some d =>
    rw [members, find_of_entry hd]
    cases hcontents : d.contents with
    | sequential text => simp [bind, Except.bind, hcontents]
    | partitioned table => simp [bind, Except.bind, hcontents, eq_comm]

theorem answer_of_entry {c : Catalog} {t : Dsn} {d : DataSet}
    (h : c.entries.get? t.name = some d) : c.answer t = d.contents.answer t := by
  rw [answer, find_of_entry h]
  rfl

theorem answer_of_absent {c : Catalog} {t : Dsn} (h : c.entries.get? t.name = none) :
    c.answer t = .error (.notFound .dataSet t.name) := by
  rw [answer, find_of_absent h]
  rfl

/-- An address answers as before if its data set is as before. -/
theorem answer_congr {c next : Catalog} {t : Dsn}
    (h : next.entries.get? t.name = c.entries.get? t.name) : next.answer t = c.answer t := by
  unfold answer find
  rw [h]

theorem answer_insert (c : Catalog) (name : String) (d : DataSet) (u : Dsn) :
    answer ⟨c.entries.insert name d⟩ u =
      if u.name = name then d.contents.answer u else c.answer u := by
  have hentry := Table.get?_insert c.entries name u.name d
  split
  · rename_i hname
    rw [if_pos hname] at hentry
    exact answer_of_entry hentry
  · rename_i hname
    rw [if_neg hname] at hentry
    exact answer_congr hentry

theorem answer_putText {c : Catalog} {t : Dsn} (h : c.access t = .ok ()) (text : String)
    (u : Dsn) : (c.putText t text).answer u = if u = t then .ok text else c.answer u := by
  obtain ⟨d, hd, hcheck⟩ := access_eq_ok_iff.1 h
  obtain ⟨n, m⟩ := t
  obtain ⟨n', m'⟩ := u
  have hput : c.putText ⟨n, m⟩ text =
      ⟨c.entries.insert n { d with contents := d.contents.put m text }⟩ := by
    simp only [putText, hd, setContents]
  rw [hput, answer_insert]
  simp only [Dsn.mk.injEq]
  by_cases hn : n' = n
  · subst hn
    simp only [if_true, true_and]
    rw [Contents.answer_put hcheck, answer_of_entry (t := ⟨n', m'⟩) hd]
  · simp only [hn, if_false, false_and]

/-! ## Accepted changes -/

variable {c next : Catalog} {a : String}

theorem read_write {data etag tag : String} (h : c.write a data etag = (.ok tag, next))
    (b : String) : next.read b = if Dsn.ofText b = Dsn.ofText a then .ok data else c.read b := by
  rw [read_eq, read_eq]
  rcases c.write_cases a data etag with ⟨_, hr, _⟩ | ⟨_, _, _, _, hr⟩ | ⟨haccess, _, hr⟩
  · cases hr.symm.trans h
  · cases hr.symm.trans h
  · obtain ⟨_, rfl⟩ := Prod.mk.inj (hr.symm.trans h)
    exact answer_putText haccess data (Dsn.ofText b)

theorem read_create {attributes : Attributes} (h : c.create a attributes = (.ok (), next))
    (b : String) :
    next.read b = if (Dsn.ofText b).name = (Dsn.ofText a).name
      then (freshContents (allocated attributes)).answer (Dsn.ofText b) else c.read b := by
  rw [read_eq, read_eq]
  rcases c.create_cases a attributes with ⟨_, hr⟩ | ⟨_, _, _, hr⟩
  · cases hr.symm.trans h
  · obtain ⟨_, rfl⟩ := Prod.mk.inj (hr.symm.trans h)
    rw [answer_insert]

/-- The new member is an empty text, put where there was none. -/
theorem createMember_eq_putText (h : c.createMember a = (.ok (), next)) :
    c.access (Dsn.ofText a) = .ok () ∧ next = c.putText (Dsn.ofText a) "" := by
  rcases c.createMember_cases a with
    ⟨_, hr⟩ | ⟨d, members, member, _, hmember, hd, hcontents, _, hr⟩
  · cases hr.symm.trans h
  · obtain ⟨_, rfl⟩ := Prod.mk.inj (hr.symm.trans h)
    constructor
    · refine access_eq_ok_iff.2 ⟨d, hd, ?_⟩
      rw [hcontents, hmember]
      rfl
    · simp only [putText, hd, hcontents, hmember, Contents.put]

theorem read_createMember (h : c.createMember a = (.ok (), next)) (b : String) :
    next.read b = if Dsn.ofText b = Dsn.ofText a then .ok "" else c.read b := by
  obtain ⟨haccess, rfl⟩ := createMember_eq_putText h
  rw [read_eq, read_eq]
  exact answer_putText haccess "" (Dsn.ofText b)

theorem read_delete_dataSet (h : c.delete a = (.ok (), next))
    (whole : (Dsn.ofText a).member = none) (b : String) :
    next.read b = if (Dsn.ofText b).name = (Dsn.ofText a).name
      then .error (.notFound .dataSet (Dsn.ofText b).name) else c.read b := by
  rw [read_eq, read_eq]
  rcases c.delete_cases a with ⟨_, hr⟩ | ⟨_, _, _, hr⟩ | ⟨_, _, _, _, hmember, _⟩
  · cases hr.symm.trans h
  · obtain ⟨_, rfl⟩ := Prod.mk.inj (hr.symm.trans h)
    have hentry := Table.get?_erase c.entries (Dsn.ofText a).name (Dsn.ofText b).name
    split
    · rename_i hname
      rw [if_pos hname] at hentry
      exact answer_of_absent hentry
    · rename_i hname
      rw [if_neg hname] at hentry
      exact answer_congr hentry
  · rw [whole] at hmember
    cases hmember

theorem read_delete_member (h : c.delete a = (.ok (), next)) {member : String}
    (inside : (Dsn.ofText a).member = some member) (b : String) :
    next.read b = if Dsn.ofText b = Dsn.ofText a
      then .error (.notFound .member (Dsn.ofText b).text) else c.read b := by
  rw [read_eq, read_eq]
  rcases c.delete_cases a with
    ⟨_, hr⟩ | ⟨_, hwhole, _⟩ | ⟨d, members, inner, _, hinner, hd, hcontents, _, hr⟩
  · cases hr.symm.trans h
  · rw [inside] at hwhole
    cases hwhole
  · obtain ⟨_, rfl⟩ := Prod.mk.inj (hr.symm.trans h)
    generalize Dsn.ofText a = t at hd hinner
    generalize Dsn.ofText b = u
    rw [setContents, answer_insert, Contents.answer_erase]
    obtain ⟨n, m⟩ := t
    obtain ⟨n', m'⟩ := u
    cases hinner
    simp only [Dsn.mk.injEq]
    by_cases hn : n' = n
    · subst hn
      simp only [if_true, true_and]
      rw [answer_of_entry (t := ⟨n', m'⟩) hd, hcontents]
    · simp only [hn, if_false, false_and]

end Catalog

end MvsGateway.Host
