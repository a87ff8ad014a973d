import MvsGateway.Host.Machine
import MvsGateway.Proofs.Catalog.Outcome

/-!
# Refused changes of the catalog

A refused call leaves the machine as it was, with one exception. A write that
expects a tag of a member opens the member before it looks at the tag. Where
the data set has no such member, and an empty text has another tag, the write
is refused and the empty member stays.
-/

namespace MvsGateway.Host

/-- The calls that may change the catalog. -/
def Call.changesCatalog : Call → Bool
  | .writeDataSet .. | .createMember _ | .createDataSet .. | .deleteDataSet _ => true
  | _ => false

/-- The address names a member that its data set does not have. -/
def Catalog.LacksMember (c : Catalog) (t : Dsn) : Prop :=
  ∃ d members member, c.entries.get? t.name = some d ∧ d.contents = .partitioned members ∧
    t.member = some member ∧ members.get? member = none

/-- A write that expects a tag of an absent member, and not the tag of an
empty text. -/
def Call.StrandsMember : Call → Catalog → Prop
  | .writeDataSet dsn _ _ etag, c =>
    c.LacksMember (Dsn.ofText dsn) ∧ etag ≠ "" ∧ etag ≠ contentTag ""
  | _, _ => False

namespace Catalog

/-- Members are all that can be absent at an address that fits. -/
theorem lacksMember_iff {c : Catalog} {t : Dsn} :
    c.LacksMember t ↔ c.access t = .ok () ∧ c.text? t = none := by
  constructor
  · rintro ⟨d, members, member, hd, hcontents, hmember, habsent⟩
    refine ⟨access_eq_ok_iff.2 ⟨d, hd, ?_⟩, ?_⟩
    · rw [hcontents, hmember]
      rfl
    · rw [text?_of_entry hd, hcontents, hmember]
      exact habsent
  · rintro ⟨haccess, htext⟩
    obtain ⟨d, hd, hcheck⟩ := access_eq_ok_iff.1 haccess
    rw [text?_of_entry hd] at htext
    cases hcontents : d.contents with
    | sequential text =>
      rw [hcontents] at hcheck htext
      cases hmember : t.member with
      | none => simp [hmember, Contents.text?] at htext
      | some member => simp [hmember, Contents.check] at hcheck
    | partitioned members =>
      rw [hcontents] at hcheck htext
      cases hmember : t.member with
      | none => simp [hmember, Contents.check] at hcheck
      | some member =>
        rw [hmember] at htext
        exact ⟨d, members, member, hd, hcontents, hmember, htext⟩

theorem putText_empty_ne {c : Catalog} {t : Dsn} (h : c.LacksMember t) : c.putText t "" ≠ c := by
  obtain ⟨haccess, htext⟩ := lacksMember_iff.1 h
  intro hsame
  have hput := text?_putText haccess "" t
  rw [hsame, htext] at hput
  simp at hput

/-! ## Refusals by operation -/

theorem create_of_error {c : Catalog} {dsn : String} {a : Attributes} {e : Error}
    (h : (c.create dsn a).1 = .error e) : (c.create dsn a).2 = c := by
  rcases c.create_cases dsn a with ⟨_, hr⟩ | ⟨_, _, _, hr⟩
  · rw [hr]
  · rw [hr] at h
    cases h

theorem createMember_of_error {c : Catalog} {dsn : String} {e : Error}
    (h : (c.createMember dsn).1 = .error e) : (c.createMember dsn).2 = c := by
  rcases c.createMember_cases dsn with ⟨_, hr⟩ | ⟨_, _, _, _, _, _, _, _, hr⟩
  · rw [hr]
  · rw [hr] at h
    cases h

theorem delete_of_error {c : Catalog} {dsn : String} {e : Error}
    (h : (c.delete dsn).1 = .error e) : (c.delete dsn).2 = c := by
  rcases c.delete_cases dsn with ⟨_, hr⟩ | ⟨_, _, _, hr⟩ | ⟨_, _, _, _, _, _, _, _, hr⟩
  · rw [hr]
  · rw [hr] at h
    cases h
  · rw [hr] at h
    cases h

/-- A write that finds a text of another tag, or no place for one, does not
open anything. -/
theorem write_of_error {c : Catalog} {dsn data etag : String} {e : Error}
    (h : (c.write dsn data etag).1 = .error e)
    (hkeeps : ¬(c.LacksMember (Dsn.ofText dsn) ∧ etag ≠ "" ∧ etag ≠ contentTag "")) :
    (c.write dsn data etag).2 = c := by
  rcases c.write_cases dsn data etag with
    ⟨_, hr, _⟩ | ⟨haccess, htext, hexpected, hstale, _⟩ | ⟨_, _, hr⟩
  · rw [hr]
  · exact absurd ⟨lacksMember_iff.2 ⟨haccess, htext⟩, hexpected, hstale⟩ hkeeps
  · rw [hr] at h
    cases h

theorem write_of_lacksMember {c : Catalog} {dsn etag : String} (data : String)
    (hlacks : c.LacksMember (Dsn.ofText dsn)) (hexpected : etag ≠ "")
    (hstale : etag ≠ contentTag "") :
    c.write dsn data etag =
      (.error (.etagMismatch dsn etag (contentTag "")), c.putText (Dsn.ofText dsn) "") := by
  obtain ⟨haccess, htext⟩ := lacksMember_iff.1 hlacks
  have hcheck : checkTag dsn etag "" = .error (.etagMismatch dsn etag (contentTag "")) :=
    checkTag_eq_error_iff.2 ⟨hexpected, Ne.symm hstale, rfl⟩
  rw [write_eq, haccess, htext]
  simp [hcheck]

end Catalog

namespace Machine

theorem onCatalog_of_error {α : Type} {s : Machine} {output : α → Output}
    {r : Except Error α × Catalog} (h : ∀ e, r.1 = .error e → r.2 = s.catalog) :
    ¬((∃ e, (s.onCatalog output r).1 = .error e) ∧ (s.onCatalog output r).2 ≠ s) := by
  apply not_refused_and_changed
  intro e he
  rw [onCatalog_snd, h e he]

/-- A change that strands no member leaves the machine as it was when it is
refused. -/
theorem refused_catalog_change_keeps {time : String} {call : Call} {s : Machine}
    (changes : call.changesCatalog = true) (hkeeps : ¬call.StrandsMember s.catalog) :
    ¬((∃ e, (invoke time call s).1 = .error e) ∧ (invoke time call s).2 ≠ s) := by
  cases call with
  | writeDataSet dsn data encoding etag =>
    exact onCatalog_of_error fun e he => Catalog.write_of_error he hkeeps
  | createMember dsn => exact onCatalog_of_error fun e he => Catalog.createMember_of_error he
  | createDataSet dsn attributes => exact onCatalog_of_error fun e he => Catalog.create_of_error he
  | deleteDataSet dsn => exact onCatalog_of_error fun e he => Catalog.delete_of_error he
  | _ => cases changes

theorem writeDataSet_of_strandsMember {time dsn data encoding etag : String} {s : Machine}
    (h : (Call.writeDataSet dsn data encoding etag).StrandsMember s.catalog) :
    invoke time (.writeDataSet dsn data encoding etag) s =
      (.error (.etagMismatch dsn etag (contentTag "")),
        { s with catalog := s.catalog.putText (Dsn.ofText dsn) "" }) := by
  obtain ⟨hlacks, hexpected, hstale⟩ := h
  rw [invoke, Catalog.write_of_lacksMember data hlacks hexpected hstale]
  rfl

/-- A change of the catalog is refused and leaves a trace exactly when it is a
write that strands a member, and then the trace is that member, empty. -/
theorem refused_catalog_change (time : String) (call : Call) (s : Machine)
    (changes : call.changesCatalog = true) :
    ((∃ e, (invoke time call s).1 = .error e) ∧ (invoke time call s).2 ≠ s ↔
      call.StrandsMember s.catalog) ∧
    ∀ dsn data encoding etag, call = .writeDataSet dsn data encoding etag →
      call.StrandsMember s.catalog →
      invoke time call s = (.error (.etagMismatch dsn etag (contentTag "")),
        { s with catalog := s.catalog.putText (Dsn.ofText dsn) "" }) := by
  refine ⟨⟨?_, ?_⟩, ?_⟩
  · intro h
    refine Classical.byContradiction fun hkeeps => ?_
    exact refused_catalog_change_keeps changes hkeeps h
  · intro h
    cases call with
    | writeDataSet dsn data encoding etag =>
      rw [writeDataSet_of_strandsMember h]
      refine ⟨⟨_, rfl⟩, fun hsame => ?_⟩
      exact Catalog.putText_empty_ne h.1 (congrArg Machine.catalog hsame)
    | _ => cases h
  · rintro dsn data encoding etag rfl h
    exact writeDataSet_of_strandsMember h

/-- The machine with one partitioned data set, `A`, without members. -/
def withLibrary : Machine :=
  (invoke "" (.createDataSet "A" { dsorg := some "PO" }) (initial "U")).2

theorem refused_write_strands_member :
    (∃ e, (invoke "" (.writeDataSet "A(M)" "X" "" "OLD") withLibrary).1 = .error e) ∧
    (invoke "" (.writeDataSet "A(M)" "X" "" "OLD") withLibrary).2 ≠ withLibrary ∧
    withLibrary.catalog.members "A" = .ok [] ∧
    (invoke "" (.writeDataSet "A(M)" "X" "" "OLD") withLibrary).2.catalog.members "A" =
      .ok [{ name := some "M" }] := by
  have hstrands : (Call.writeDataSet "A(M)" "X" "" "OLD").StrandsMember withLibrary.catalog := by
    refine ⟨⟨_, _, "M", rfl, rfl, rfl, rfl⟩, by decide, fun h => ?_⟩
    have hlength := length_contentTag ""
    rw [← h] at hlength
    exact absurd hlength (by decide)
  obtain ⟨hiff, htrace⟩ :=
    refused_catalog_change "" (.writeDataSet "A(M)" "X" "" "OLD") withLibrary rfl
  obtain ⟨hrefused, hchanged⟩ := hiff.2 hstrands
  refine ⟨hrefused, hchanged, rfl, ?_⟩
  rw [htrace _ _ _ _ rfl hstrands]
  rfl

end Machine

end MvsGateway.Host
