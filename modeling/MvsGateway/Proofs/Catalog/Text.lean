import MvsGateway.Host.Catalog

/-!
# Texts in a catalog

A catalog as a partial map from data sets and members to texts. Reading is a
look-up in the map. A write is refused where the address does not fit the data
set, and where the tag it expects is not that of the text it finds. The
outcome of a write is described once, and all that follows is read off that.
-/

namespace MvsGateway.Host

/-! ## One data set -/

namespace Contents

theorem text?_put {c : Contents} {name : String} {member : Option String}
    (h : c.check name member = .ok ()) (text : String) (other : Option String) :
    (c.put member text).text? other = if other = member then some text else c.text? other := by
  cases c <;> cases member <;> simp [check] at h
  · cases other <;> simp [put, text?]
  · cases other <;> simp [put, text?]

theorem put_put (c : Contents) (member : Option String) (first second : String) :
    (c.put member first).put member second = c.put member second := by
  cases c <;> cases member <;> simp [put]

/-- The text that is there can be put again. -/
theorem put_self {c : Contents} {member : Option String} {text : String}
    (h : c.text? member = some text) : c.put member text = c := by
  cases c with
  | sequential held =>
    cases member with
    | none =>
      cases h
      rfl
    | some member => cases h
  | partitioned members =>
    cases member with
    | none => cases h
    | some member =>
      show partitioned (members.insert member text) = partitioned members
      rw [Table.insert_eq_self h]

theorem check_of_text? {c : Contents} {member : Option String} {text : String}
    (h : c.text? member = some text) (name : String) : c.check name member = .ok () := by
  cases c <;> cases member <;> simp_all [text?, check]

/-- Opening a place puts an empty text into it, if there is none yet. -/
theorem opened_eq (c : Contents) (member : Option String) :
    c.opened member = if (c.text? member).isSome then c else c.put member "" := by
  unfold opened
  split
  · rename_i h
    simp [h]
  · rename_i h
    simp [h]

theorem text?_opened {c : Contents} {name : String} {member : Option String}
    (h : c.check name member = .ok ()) :
    (c.opened member).text? member = some ((c.text? member).getD "") := by
  rw [opened_eq]
  cases ht : c.text? member with
  | some text => simp [ht]
  | none => simp [text?_put h]

theorem put_opened (c : Contents) (member : Option String) (text : String) :
    (c.opened member).put member text = c.put member text := by
  rw [opened_eq]
  split
  · rfl
  · rw [put_put]

end Contents

/-! ## The catalog as a map -/

namespace Catalog

/-- The text of a data set or a member. -/
def text? (c : Catalog) (t : Dsn) : Option String :=
  (c.entries.get? t.name).bind fun d => d.contents.text? t.member

/-- Whether the data set is there and takes an address with this member part. -/
def access (c : Catalog) (t : Dsn) : Except Error Unit := do
  (← c.find t.name).contents.check t.name t.member

/-- The catalog with another text at an address. -/
def putText (c : Catalog) (t : Dsn) (text : String) : Catalog :=
  match c.entries.get? t.name with
  | some d => c.setContents t.name d (d.contents.put t.member text)
  | none => c

theorem find_of_entry {c : Catalog} {name : String} {d : DataSet}
    (h : c.entries.get? name = some d) : c.find name = .ok d := by
  simp [find, h]

theorem find_of_absent {c : Catalog} {name : String} (h : c.entries.get? name = none) :
    c.find name = .error (.notFound .dataSet name) := by
  simp [find, h]

theorem access_eq_ok_iff {c : Catalog} {t : Dsn} :
    c.access t = .ok () ↔
      ∃ d, c.entries.get? t.name = some d ∧ d.contents.check t.name t.member = .ok () := by
  unfold access
  cases hd : c.entries.get? t.name with
  | none => simp [find_of_absent hd, bind, Except.bind]
  | some d => simp [find_of_entry hd, bind, Except.bind]

theorem text?_of_entry {c : Catalog} {t : Dsn} {d : DataSet} (h : c.entries.get? t.name = some d) :
    c.text? t = d.contents.text? t.member := by
  simp [text?, h]

theorem access_of_text? {c : Catalog} {t : Dsn} {text : String} (h : c.text? t = some text) :
    c.access t = .ok () := by
  obtain ⟨d, hd, ht⟩ := Option.bind_eq_some_iff.1 h
  exact access_eq_ok_iff.2 ⟨d, hd, Contents.check_of_text? ht t.name⟩

theorem text?_putText {c : Catalog} {t : Dsn} (h : c.access t = .ok ()) (text : String) (u : Dsn) :
    (c.putText t text).text? u = if u = t then some text else c.text? u := by
  obtain ⟨d, hd, hcheck⟩ := access_eq_ok_iff.1 h
  obtain ⟨n, m⟩ := t
  obtain ⟨n', m'⟩ := u
  simp only [putText, hd, setContents, text?, Table.get?_insert, Dsn.mk.injEq]
  by_cases hn : n' = n
  · subst hn
    simp [hd, Contents.text?_put hcheck]
  · simp [hn]

theorem setContents_self {c : Catalog} {name : String} {d : DataSet}
    (h : c.entries.get? name = some d) : c.setContents name d d.contents = c := by
  simp only [setContents]
  rw [Table.insert_eq_self h]

theorem putText_self {c : Catalog} {t : Dsn} {text : String} (h : c.text? t = some text) :
    c.putText t text = c := by
  obtain ⟨d, hd, ht⟩ := Option.bind_eq_some_iff.1 h
  simp only [putText, hd]
  rw [Contents.put_self ht, setContents_self hd]

/-! ## Reading and writing -/

/-- A read answers with the text under the address, if there is one. -/
theorem read_eq_ok_iff {c : Catalog} {dsn text : String} :
    c.read dsn = .ok text ↔ c.text? (Dsn.ofText dsn) = some text := by
  unfold read text?
  cases hd : c.entries.get? (Dsn.ofText dsn).name with
  | none => simp [find_of_absent hd, bind, Except.bind]
  | some d =>
    simp only [find_of_entry hd, bind, Except.bind, Option.bind_some]
    cases ht : d.contents.text? (Dsn.ofText dsn).member with
    | some held => simp [Contents.check_of_text? ht]
    | none => cases d.contents.check (Dsn.ofText dsn).name (Dsn.ofText dsn).member <;> simp

/-- What a write does, in all cases. -/
theorem write_eq (c : Catalog) (dsn data etag : String) :
    c.write dsn data etag =
      match c.access (Dsn.ofText dsn) with
      | .error e => (.error e, c)
      | .ok () =>
        match checkTag dsn etag ((c.text? (Dsn.ofText dsn)).getD "") with
        | .error e =>
          (.error e, if (c.text? (Dsn.ofText dsn)).isSome then c
            else c.putText (Dsn.ofText dsn) "")
        | .ok () => (.ok (contentTag data), c.putText (Dsn.ofText dsn) data) := by
  unfold write
  cases hd : c.entries.get? (Dsn.ofText dsn).name with
  | none => simp [find_of_absent hd, access, bind, Except.bind]
  | some d =>
    have haccess : c.access (Dsn.ofText dsn) =
        d.contents.check (Dsn.ofText dsn).name (Dsn.ofText dsn).member := by
      simp [access, find_of_entry hd, bind, Except.bind]
    simp only [haccess, find_of_entry hd, text?_of_entry hd]
    cases hcheck : d.contents.check (Dsn.ofText dsn).name (Dsn.ofText dsn).member with
    | error e => rfl
    | ok =>
      simp only [Contents.text?_opened hcheck, Option.getD_some, putText, hd]
      cases checkTag dsn etag ((d.contents.text? (Dsn.ofText dsn).member).getD "") with
      | ok => simp only [Contents.put_opened]
      | error e =>
        simp only [Contents.opened_eq]
        split
        · rw [setContents_self hd]
        · rfl

theorem write_of_text? {c : Catalog} {dsn held : String} (data etag : String)
    (h : c.text? (Dsn.ofText dsn) = some held) :
    c.write dsn data etag =
      match checkTag dsn etag held with
      | .error e => (.error e, c)
      | .ok () => (.ok (contentTag data), c.putText (Dsn.ofText dsn) data) := by
  rw [write_eq, access_of_text? h, h]
  rfl

end Catalog

end MvsGateway.Host
