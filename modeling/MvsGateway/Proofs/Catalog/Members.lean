import MvsGateway.Proofs.Catalog.Map

/-!
# Members that come and go

A member is in a partitioned data set exactly if some call has added it and no
later call has removed it. Two calls add members. The one that creates them
refuses an empty name, and the one that writes does not, so that a write to
`NAME()` leaves a member without a name.
-/

namespace MvsGateway.Host

namespace Catalog

/-- The data set is there and has members. -/
def IsLibrary (c : Catalog) (name : String) : Prop :=
  ∃ d members, c.entries.get? name = some d ∧ d.contents = .partitioned members

def HasMember (c : Catalog) (name member : String) : Prop :=
  ∃ text, c.text? ⟨name, some member⟩ = some text

theorem access_member_iff {c : Catalog} {name member : String} :
    c.access ⟨name, some member⟩ = .ok () ↔ c.IsLibrary name := by
  rw [access_eq_ok_iff]
  constructor
  · rintro ⟨d, hd, hcheck⟩
    cases hcontents : d.contents with
    | sequential text =>
      rw [hcontents] at hcheck
      cases hcheck
    | partitioned members => exact ⟨d, members, hd, hcontents⟩
  · rintro ⟨d, members, hd, hcontents⟩
    refine ⟨d, hd, ?_⟩
    rw [hcontents]
    rfl

theorem isLibrary_of_hasMember {c : Catalog} {name member : String} (h : c.HasMember name member) :
    c.IsLibrary name := by
  obtain ⟨text, htext⟩ := h
  exact access_member_iff.1 (access_of_text? htext)

theorem hasMember_iff_of_entry {c : Catalog} {name : String} {d : DataSet}
    {members : Table String String} (hd : c.entries.get? name = some d)
    (hcontents : d.contents = .partitioned members) (member : String) :
    c.HasMember name member ↔ (members.get? member).isSome = true := by
  have htext : c.text? ⟨name, some member⟩ = members.get? member := by
    rw [text?_of_entry (t := ⟨name, some member⟩) hd, hcontents]
    rfl
  rw [HasMember, htext, Option.isSome_iff_exists]

/-! ## One change -/

variable {name member : String}

theorem hasMember_putText {c : Catalog} {t : Dsn} (haccess : c.access t = .ok ()) (text : String) :
    (c.putText t text).HasMember name member ↔
      t = ⟨name, some member⟩ ∧ c.IsLibrary name ∨ c.HasMember name member := by
  simp only [HasMember, text?_putText haccess]
  by_cases hsame : (⟨name, some member⟩ : Dsn) = t
  · subst hsame
    simp [access_member_iff.1 haccess]
  · simp [hsame, Ne.symm hsame]

/-- Whatever its tag, a write leaves the member that it names. -/
theorem hasMember_write (c : Catalog) (dsn data etag : String) :
    (c.write dsn data etag).2.HasMember name member ↔
      Dsn.ofText dsn = ⟨name, some member⟩ ∧ c.IsLibrary name ∨ c.HasMember name member := by
  rcases c.write_cases dsn data etag with
    ⟨e, hr, hreason⟩ | ⟨haccess, _, _, _, hr⟩ | ⟨haccess, _, hr⟩
  · rw [hr]
    refine ⟨.inr, ?_⟩
    rintro (⟨hsame, hlibrary⟩ | hheld)
    · -- The address is in order, so that the member is there with another tag.
      rw [hsame] at hreason
      rcases hreason with herror | hheld
      · rw [access_member_iff.2 hlibrary] at herror
        cases herror
      · exact Option.isSome_iff_exists.1 hheld
    · exact hheld
  · rw [hr]
    exact hasMember_putText haccess ""
  · rw [hr]
    exact hasMember_putText haccess data

theorem hasMember_create (c : Catalog) (dsn : String) (a : Attributes) :
    (c.create dsn a).2.HasMember name member ↔ c.HasMember name member := by
  rcases c.create_cases dsn a with ⟨_, hr⟩ | ⟨_, _, habsent, hr⟩
  · rw [hr]
  · rw [hr]
    simp only [HasMember, text?, Table.get?_insert]
    by_cases hname : name = (Dsn.ofText dsn).name
    · -- Nothing is there before, and no member after.
      rw [if_pos hname, hname, habsent]
      unfold freshContents
      cases (allocated a).isPartitioned <;> simp [Contents.text?]
    · rw [if_neg hname]

theorem createMember_succeeds {c : Catalog} {dsn : String} {d : DataSet}
    {members : Table String String} (hdsn : Dsn.ofText dsn = ⟨name, some member⟩)
    (hne : member ≠ "") (hd : c.entries.get? name = some d)
    (hcontents : d.contents = .partitioned members) (habsent : members.get? member = none) :
    (c.createMember dsn).1 = .ok () := by
  unfold createMember
  generalize Dsn.ofText dsn = t at hdsn ⊢
  obtain ⟨other, part⟩ := t
  obtain ⟨rfl, hpart⟩ := Dsn.mk.inj hdsn
  simp only
  split
  · cases hpart
  · exact absurd (Option.some.inj hpart).symm hne
  · cases hpart
    simp only [find_of_entry hd, hcontents, Table.contains, habsent]
    rfl

/-- A creation leaves the member that it names, too, unless the name is empty. -/
theorem hasMember_createMember (c : Catalog) (dsn : String) :
    (c.createMember dsn).2.HasMember name member ↔
      (Dsn.ofText dsn = ⟨name, some member⟩ ∧ c.IsLibrary name) ∧ member ≠ "" ∨
        c.HasMember name member := by
  rcases c.createMember_cases dsn with ⟨e, hr⟩ | ⟨_, _, inner, hne, hinner, _, _, _, hr⟩
  · rw [hr]
    refine ⟨.inr, ?_⟩
    rintro (⟨⟨hdsn, d, members, hd, hcontents⟩, hne⟩ | hheld)
    · -- Were the member not there, it could be created.
      rw [hasMember_iff_of_entry hd hcontents, Option.isSome_iff_ne_none]
      intro habsent
      have hcreated := createMember_succeeds hdsn hne hd hcontents habsent
      rw [hr] at hcreated
      cases hcreated
    · exact hheld
  · obtain ⟨haccess, hput⟩ := createMember_eq_putText hr
    rw [hr, hput, hasMember_putText haccess]
    have hnamed : Dsn.ofText dsn = ⟨name, some member⟩ → member ≠ "" := by
      intro hdsn
      rw [hdsn] at hinner
      cases hinner
      exact hne
    refine or_congr_left ⟨fun h => ⟨h, hnamed h.1⟩, And.left⟩

theorem delete_succeeds {c : Catalog} {dsn : String} (hheld : c.HasMember name member)
    (hdsn : Dsn.ofText dsn = ⟨name, none⟩ ∨ Dsn.ofText dsn = ⟨name, some member⟩) :
    (c.delete dsn).1 = .ok () := by
  obtain ⟨d, members, hd, hcontents⟩ := isLibrary_of_hasMember hheld
  rw [hasMember_iff_of_entry hd hcontents] at hheld
  unfold delete
  rcases hdsn with hdsn | hdsn
  · simp only [hdsn, find_of_entry hd]
  · simp only [hdsn, find_of_entry hd, hcontents, Table.contains, hheld, if_true]

/-- A deletion takes away the member that it names, and all of a data set. -/
theorem hasMember_delete (c : Catalog) (dsn : String) :
    (c.delete dsn).2.HasMember name member ↔
      c.HasMember name member ∧
        ¬(Dsn.ofText dsn = ⟨name, none⟩ ∨ Dsn.ofText dsn = ⟨name, some member⟩) := by
  rcases c.delete_cases dsn with
    ⟨_, hr⟩ | ⟨d, hwhole, hd, hr⟩ | ⟨d, members, inner, _, hinner, hd, hcontents, _, hr⟩
  · rw [hr]
    refine ⟨fun hheld => ⟨hheld, fun hdsn => ?_⟩, And.left⟩
    have hdeleted := delete_succeeds hheld hdsn
    rw [hr] at hdeleted
    cases hdeleted
  · rw [hr]
    generalize Dsn.ofText dsn = t at hwhole hd
    obtain ⟨other, _⟩ := t
    cases hwhole
    simp only [HasMember, text?, Table.get?_erase, Dsn.mk.injEq]
    by_cases hname : name = other
    · simp [hname]
    · simp [hname, Ne.symm hname]
  · rw [hr]
    generalize Dsn.ofText dsn = t at hinner hd
    obtain ⟨other, _⟩ := t
    cases hinner
    by_cases hname : name = other
    · subst hname
      have hentry : (c.setContents name d (.partitioned (members.erase inner))).entries.get? name =
          some { d with contents := .partitioned (members.erase inner) } := by
        rw [setContents, Table.get?_insert, if_pos rfl]
      rw [hasMember_iff_of_entry hentry rfl, hasMember_iff_of_entry hd hcontents,
        Table.get?_erase]
      by_cases hmember : member = inner
      · simp [hmember]
      · simp [hmember, Ne.symm hmember]
    · simp [HasMember, text?, setContents, hname, Ne.symm hname]

theorem hasMember_empty : ¬empty.HasMember name member := by
  rintro ⟨text, htext⟩
  cases htext

end Catalog

/-! ## One call -/

/-- The call leaves the member in the catalog, whether it was there or not. -/
def Call.AddsMember (name member : String) (c : Catalog) : Call → Prop
  | .writeDataSet dsn _ _ _ => Dsn.ofText dsn = ⟨name, some member⟩ ∧ c.IsLibrary name
  | .createMember dsn => (Dsn.ofText dsn = ⟨name, some member⟩ ∧ c.IsLibrary name) ∧ member ≠ ""
  | _ => False

/-- The call deletes the member, or all of its data set. -/
def Call.RemovesMember (name member : String) : Call → Prop
  | .deleteDataSet dsn => Dsn.ofText dsn = ⟨name, none⟩ ∨ Dsn.ofText dsn = ⟨name, some member⟩
  | _ => False

namespace Machine

variable {name member : String}

theorem hasMember_invoke (time : String) (call : Call) (s : Machine) :
    (invoke time call s).2.catalog.HasMember name member ↔
      call.AddsMember name member s.catalog ∨
        s.catalog.HasMember name member ∧ ¬call.RemovesMember name member := by
  cases call with
  | writeDataSet dsn data _ etag =>
    rw [invoke, onCatalog_catalog, Catalog.hasMember_write]
    simp [Call.AddsMember, Call.RemovesMember]
  | createMember dsn =>
    rw [invoke, onCatalog_catalog, Catalog.hasMember_createMember]
    simp [Call.AddsMember, Call.RemovesMember]
  | createDataSet dsn attributes =>
    rw [invoke, onCatalog_catalog, Catalog.hasMember_create]
    simp [Call.AddsMember, Call.RemovesMember]
  | deleteDataSet dsn =>
    rw [invoke, onCatalog_catalog, Catalog.hasMember_delete]
    simp [Call.AddsMember, Call.RemovesMember]
  | _ =>
    simp only [invoke, onFiles_catalog, onJobs_catalog, submitText_catalog, Call.AddsMember,
      Call.RemovesMember, not_false_eq_true, and_true, false_or]

/-! ## A run -/

/-- Some call of the run adds the member, and no later one removes it. -/
def AddsMember (s : Machine) (history : List (String × Call)) (name member : String) : Prop :=
  ∃ before time call later, history = before ++ (time, call) :: later ∧
    call.AddsMember name member (s.after before).catalog ∧
    ∀ step ∈ later, ¬step.2.RemovesMember name member

theorem addsMember_cons {s : Machine} {time : String} {call : Call}
    {history : List (String × Call)} :
    s.AddsMember ((time, call) :: history) name member ↔
      (call.AddsMember name member s.catalog ∧
        ∀ step ∈ history, ¬step.2.RemovesMember name member) ∨
      (invoke time call s).2.AddsMember history name member := by
  constructor
  · rintro ⟨before, t, added, later, hsplit, hadds, hlater⟩
    cases before with
    | nil =>
      cases hsplit
      exact .inl ⟨hadds, hlater⟩
    | cons step before =>
      cases hsplit
      exact .inr ⟨before, t, added, later, rfl, hadds, hlater⟩
  · rintro (⟨hadds, hlater⟩ | ⟨before, t, added, later, rfl, hadds, hlater⟩)
    · exact ⟨[], time, call, history, rfl, hadds, hlater⟩
    · exact ⟨(time, call) :: before, t, added, later, rfl, hadds, hlater⟩

/-- A member is there exactly if the run adds it last, or finds it and leaves
it there. -/
theorem hasMember_after_iff (s : Machine) (history : List (String × Call)) :
    (s.after history).catalog.HasMember name member ↔
      s.AddsMember history name member ∨
        s.catalog.HasMember name member ∧
          ∀ step ∈ history, ¬step.2.RemovesMember name member := by
  induction history generalizing s with
  | nil => simp [AddsMember]
  | cons step history ih =>
    obtain ⟨time, call⟩ := step
    rw [after_cons, ih, hasMember_invoke, addsMember_cons, List.forall_mem_cons]
    -- What the first call leaves is there at the end if nothing behind removes it.
    constructor
    · rintro (hadds | ⟨hadds | ⟨hheld, hkeeps⟩, hlater⟩)
      · exact .inl (.inr hadds)
      · exact .inl (.inl ⟨hadds, hlater⟩)
      · exact .inr ⟨hheld, hkeeps, hlater⟩
    · rintro ((⟨hadds, hlater⟩ | hadds) | ⟨hheld, hkeeps, hlater⟩)
      · exact .inr ⟨.inl hadds, hlater⟩
      · exact .inl hadds
      · exact .inr ⟨.inr ⟨hheld, hkeeps⟩, hlater⟩

/-! ## Members without a name -/

/-- What the run does last about a member without a name is to write to
`NAME()` while the data set is partitioned. -/
def WritesNameless (s : Machine) (history : List (String × Call)) (name : String) : Prop :=
  ∃ before time dsn data encoding etag later,
    history = before ++ (time, .writeDataSet dsn data encoding etag) :: later ∧
    Text.upper (Text.trim dsn) = name ++ "()" ∧ (s.after before).catalog.IsLibrary name ∧
    ∀ step ∈ later, ¬step.2.RemovesMember name ""

/-- The names that the host accepts are free of parentheses. -/
theorem ofText_eq_nameless_iff {c : Catalog} (hcanonical : c.IsCanonical)
    (hlibrary : c.IsLibrary name) (dsn : String) :
    Dsn.ofText dsn = ⟨name, some ""⟩ ↔ Text.upper (Text.trim dsn) = name ++ "()" := by
  obtain ⟨d, members, hd, _⟩ := hlibrary
  have hopen : '(' ∉ name.toList :=
    fun h => (plain_of_nameFault? (hcanonical.name name d hd).1 h).2 rfl
  rw [Dsn.ofText_eq_member_iff, append_parentheses]
  exact and_iff_left hopen

theorem addsMember_nameless_iff (user : String) (history : List (String × Call)) :
    (initial user).AddsMember history name "" ↔ (initial user).WritesNameless history name := by
  constructor
  · rintro ⟨before, time, call, later, hsplit, hadds, hlater⟩
    cases call with
    | writeDataSet dsn data encoding etag =>
      obtain ⟨hdsn, hlibrary⟩ := hadds
      rw [ofText_eq_nameless_iff (isCanonical_catalog user before) hlibrary] at hdsn
      exact ⟨before, time, dsn, data, encoding, etag, later, hsplit, hdsn, hlibrary, hlater⟩
    | createMember dsn => exact absurd rfl hadds.2
    | _ => cases hadds
  · rintro ⟨before, time, dsn, data, encoding, etag, later, hsplit, hdsn, hlibrary, hlater⟩
    rw [← ofText_eq_nameless_iff (isCanonical_catalog user before) hlibrary] at hdsn
    exact ⟨before, time, _, later, hsplit, ⟨hdsn, hlibrary⟩, hlater⟩

end Machine

/-- The members of a data set are what its listing shows. -/
theorem Catalog.mem_members_iff {c : Catalog} {dsn : String} {entries : List MemberEntry}
    (h : c.members dsn = .ok entries) (member : String) :
    (∃ e ∈ entries, e.name = some member) ↔ c.HasMember (Dsn.ofText dsn).name member := by
  obtain ⟨d, table, hd, hcontents, rfl⟩ := members_eq_ok_iff.1 h
  rw [hasMember_iff_of_entry hd hcontents, Option.isSome_iff_exists, ← Table.mem_keys_iff]
  constructor
  · rintro ⟨e, he, hname⟩
    obtain ⟨name, hmem, rfl⟩ := List.mem_map.1 he
    cases hname
    exact hmem
  · intro hmem
    exact ⟨_, List.mem_map.2 ⟨member, hmem, rfl⟩, rfl⟩

/-- After any run, a data set has a member without a name, and a listing shows
one, exactly if the last that the run did about it was to write to it. -/
theorem Machine.nameless_member_iff (user : String) (history : List (String × Call)) :
    (∀ name, ((initial user).after history).catalog.HasMember name "" ↔
      (initial user).WritesNameless history name) ∧
    ∀ dsn entries, ((initial user).after history).catalog.members dsn = .ok entries →
      ((∃ e ∈ entries, e.name = some "") ↔
        (initial user).WritesNameless history (Dsn.ofText dsn).name) := by
  have hmember : ∀ name, ((initial user).after history).catalog.HasMember name "" ↔
      (initial user).WritesNameless history name := by
    intro name
    rw [hasMember_after_iff, addsMember_nameless_iff]
    exact or_iff_left fun h => Catalog.hasMember_empty h.1
  exact ⟨hmember, fun dsn entries h => (Catalog.mem_members_iff h "").trans (hmember _)⟩

/-- A write to `A()` gives the library `A` a member without a name. -/
theorem Machine.write_leaves_nameless_member :
    ∃ entries, ((initial "U").after [("", .createDataSet "A" { dsorg := some "PO" }),
        ("", .writeDataSet "A()" "X" "" "")]).catalog.members "A" = .ok entries ∧
      ∃ e ∈ entries, e.name = some "" := by
  obtain ⟨_, hlisted⟩ := nameless_member_iff "U"
    [("", .createDataSet "A" { dsorg := some "PO" }), ("", .writeDataSet "A()" "X" "" "")]
  have hupper : Text.upper (Text.trim "A()") = (Dsn.ofText "A").name ++ "()" := rfl
  have hlibrary : ((initial "U").after [("", .createDataSet "A" { dsorg := some "PO" })]).catalog
      |>.IsLibrary (Dsn.ofText "A").name := ⟨_, _, rfl, rfl⟩
  refine ⟨_, rfl, (hlisted "A" _ rfl).2 ?_⟩
  exact ⟨_, "", "A()", "X", "", "", [], rfl, hupper, hlibrary, nofun⟩

end MvsGateway.Host
