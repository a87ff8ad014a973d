import MvsGateway.Proofs.Catalog.Map

/-!
# How a catalog represents data sets

Names, attributes and contents of a data set are chosen in separate steps when
it is allocated, and no later step compares them. They agree all the same: the
attributes stay those of the allocation, and every change of the contents
keeps their shape. So the organization that a listing shows tells whether a
data set is read as a whole or by its members.
-/

namespace MvsGateway.Host

/-! ## Upper case -/

/-- No character is a lower-case letter of ASCII. -/
def HasNoLower (s : String) : Prop := ∀ c ∈ s.toList, c.isLower = false

theorem hasNoLower_of_upper_eq {s : String} (h : Text.upper s = s) : HasNoLower s :=
  fun c hc => Chars.isLower_of_toUpper_eq (Text.upper_eq_self_iff.1 h c hc)

/-! ## Names -/

/-- One to eight characters: a letter or what counts as one, and then also
digits and hyphens. -/
structure IsUpperQualifier (q : List Char) : Prop where
  length : 1 ≤ q.length ∧ q.length ≤ 8
  first : ∀ c ∈ q.head?, c.isUpper = true ∨ isNational c = true
  chars : ∀ c ∈ q, c.isUpper = true ∨ c.isDigit = true ∨ isNational c = true ∨ c = '-'

/-- One to forty-four characters in qualifiers with dots between them. -/
structure IsCatalogedName (name : String) : Prop where
  length : 1 ≤ name.toList.length ∧ name.toList.length ≤ 44
  qualifiers : ∀ q ∈ Chars.splitAt '.' name.toList, IsUpperQualifier q

theorem length_le_utf8ByteSize_ofList (chars : List Char) :
    chars.length ≤ (String.ofList chars).utf8ByteSize := by
  induction chars with
  | nil => exact Nat.zero_le _
  | cons c r ih =>
    have hcons : String.ofList (c :: r) = String.singleton c ++ String.ofList r := by
      rw [← String.toList_inj]
      simp
    have hone := Char.utf8Size_pos c
    rw [hcons, String.utf8ByteSize_append, String.utf8ByteSize_singleton, List.length_cons]
    omega

theorem length_le_utf8ByteSize (s : String) : s.toList.length ≤ s.utf8ByteSize := by
  have h := length_le_utf8ByteSize_ofList s.toList
  rwa [String.ofList_toList] at h

theorem isUpperQualifier_of_isQualifier {q : List Char} (h : isQualifier q = true)
    (hupper : ∀ c ∈ q, c.toUpper = c) : IsUpperQualifier q := by
  -- A letter that is its own upper case is an upper-case one.
  have hletter : ∀ c ∈ q, c.isAlpha = true → c.isUpper = true := by
    intro c hc halpha
    have hlower := Chars.isLower_of_toUpper_eq (hupper c hc)
    exact (Bool.or_eq_true_iff.1 halpha).resolve_right (by simp [hlower])
  unfold isQualifier at h
  split at h
  · cases h
  · rename_i c r
    simp only [Bool.and_eq_true, Bool.or_eq_true, decide_eq_true_eq, List.all_eq_true,
      beq_iff_eq] at h
    obtain ⟨⟨hlength, hfirst⟩, hchars⟩ := h
    constructor
    · exact ⟨by simp, hlength⟩
    · rintro d ⟨⟩
      exact hfirst.imp_left (hletter c List.mem_cons_self)
    · intro d hd
      rcases hchars d hd with (halphanum | hnational) | hhyphen
      · rcases Bool.or_eq_true_iff.1 halphanum with halpha | hdigit
        · exact .inl (hletter d hd halpha)
        · exact .inr (.inl hdigit)
      · exact .inr (.inr (.inl hnational))
      · exact .inr (.inr (.inr hhyphen))

/-- A name that the host accepts is one of these, if it is in upper case. -/
theorem isCatalogedName_of_nameFault? {name : String} (hfault : nameFault? name = none)
    (hupper : Text.upper name = name) : IsCatalogedName name := by
  have hchars := Text.upper_eq_self_iff.1 hupper
  unfold nameFault? at hfault
  split at hfault
  · cases hfault
  · rename_i hsize
    simp only [Bool.or_eq_true, decide_eq_true_eq, not_or, Nat.not_lt] at hsize
    obtain ⟨hempty, hbytes⟩ := hsize
    split at hfault
    · cases hfault
    · rename_i hpieces
      constructor
      · have hlength := length_le_utf8ByteSize name
        have hne : 0 < name.toList.length := List.length_pos_iff.2 (by simpa using hempty)
        exact ⟨hne, Nat.le_trans hlength hbytes⟩
      · intro q hq
        have hqualifier := List.find?_eq_none.1 hpieces q hq
        apply isUpperQualifier_of_isQualifier (by simpa using hqualifier)
        intro c hc
        exact hchars c (Chars.of_mem_splitBy hq hc).1

/-! ## Attributes and contents -/

/-- The organizations that hold members. -/
def IsPo (dsorg : Option String) : Prop := dsorg = some "PO" ∨ dsorg = some "PO-E"

/-- What the host fills in is there, and in upper case where it is text. -/
structure Attributes.IsComplete (a : Attributes) : Prop where
  dsorg : ∃ dsorg, a.dsorg = some dsorg ∧ HasNoLower dsorg
  recfm : ∃ recfm, a.recfm = some recfm ∧ HasNoLower recfm
  lrecl : ∃ lrecl, a.lrecl = some lrecl

def Contents.HasMembers (c : Contents) : Prop := ∃ members, c = .partitioned members

theorem Contents.hasMembers_put (c : Contents) (member : Option String) (text : String) :
    (c.put member text).HasMembers ↔ c.HasMembers := by
  cases c <;> cases member <;> simp [put, HasMembers]

/-- The attributes are those of some allocation, and tell the shape of the
contents. -/
structure DataSet.IsAllocated (d : DataSet) : Prop where
  attributes : ∃ a, d.attributes = Catalog.allocated a
  shape : d.contents.HasMembers ↔ d.attributes.isPartitioned = true

theorem DataSet.IsAllocated.withContents {d : DataSet} (h : d.IsAllocated) {contents : Contents}
    (hshape : contents.HasMembers ↔ d.contents.HasMembers) :
    DataSet.IsAllocated { d with contents } :=
  ⟨h.attributes, hshape.trans h.shape⟩

namespace Catalog

theorem isComplete_allocated (a : Attributes) : (allocated a).IsComplete where
  dsorg := ⟨_, rfl, hasNoLower_of_upper_eq (Text.upper_upper _)⟩
  recfm := ⟨_, rfl, hasNoLower_of_upper_eq (Text.upper_upper _)⟩
  lrecl := ⟨_, rfl⟩

theorem isPo_allocated_iff (a : Attributes) :
    IsPo (allocated a).dsorg ↔ (allocated a).isPartitioned = true := by
  simp [IsPo, Attributes.isPartitioned, allocated]

theorem hasMembers_freshContents (a : Attributes) :
    (freshContents a).HasMembers ↔ a.isPartitioned = true := by
  unfold freshContents
  cases a.isPartitioned <;> simp [Contents.HasMembers]

theorem isAllocated_fresh (a : Attributes) :
    DataSet.IsAllocated ⟨allocated a, volume, freshContents (allocated a)⟩ where
  attributes := ⟨a, rfl⟩
  shape := by
    dsimp only
    exact hasMembers_freshContents (allocated a)

/-! ## Every change -/

/-- Every data set is as some allocation left it, but for the texts in it. -/
def IsAllocated (c : Catalog) : Prop := ∀ name d, c.entries.get? name = some d → d.IsAllocated

theorem isAllocated_empty : empty.IsAllocated := by
  intro name d hd
  cases hd

theorem isAllocated_insert {c : Catalog} (h : c.IsAllocated) {d : DataSet} (hd : d.IsAllocated)
    (name : String) : IsAllocated ⟨c.entries.insert name d⟩ := by
  intro other e he
  rcases Table.of_get?_insert he with ⟨_, rfl⟩ | ⟨_, hold⟩
  · exact hd
  · exact h other e hold

theorem isAllocated_setContents {c : Catalog} (h : c.IsAllocated) {name : String} {d : DataSet}
    (hd : c.entries.get? name = some d) {contents : Contents}
    (hshape : contents.HasMembers ↔ d.contents.HasMembers) :
    (c.setContents name d contents).IsAllocated :=
  isAllocated_insert h ((h name d hd).withContents hshape) name

theorem isAllocated_putText {c : Catalog} (h : c.IsAllocated) (t : Dsn) (text : String) :
    (c.putText t text).IsAllocated := by
  unfold putText
  cases hd : c.entries.get? t.name with
  | none => exact h
  | some d => exact isAllocated_setContents h hd (Contents.hasMembers_put d.contents t.member text)

theorem isAllocated_kept : Kept IsAllocated where
  write c dsn data etag h := by
    rcases c.write_cases dsn data etag with ⟨_, hr, _⟩ | ⟨_, _, _, _, hr⟩ | ⟨_, _, hr⟩
    · rw [hr]
      exact h
    · rw [hr]
      exact isAllocated_putText h (Dsn.ofText dsn) ""
    · rw [hr]
      exact isAllocated_putText h (Dsn.ofText dsn) data
  create c dsn attributes h := by
    rcases c.create_cases dsn attributes with ⟨_, hr⟩ | ⟨_, _, _, hr⟩
    · rw [hr]
      exact h
    · rw [hr]
      exact isAllocated_insert h (isAllocated_fresh attributes) (Dsn.ofText dsn).name
  createMember c dsn h := by
    rcases c.createMember_cases dsn with ⟨_, hr⟩ | ⟨d, members, member, _, _, hd, hc, _, hr⟩
    · rw [hr]
      exact h
    · rw [hr]
      refine isAllocated_setContents h hd ?_
      rw [hc]
      exact ⟨fun _ => ⟨members, rfl⟩, fun _ => ⟨_, rfl⟩⟩
  delete c dsn h := by
    rcases c.delete_cases dsn with
      ⟨_, hr⟩ | ⟨_, _, _, hr⟩ | ⟨d, members, member, _, _, hd, hc, _, hr⟩
    · rw [hr]
      exact h
    · rw [hr]
      exact fun name d hd => h name d (Table.of_get?_erase hd).2
    · rw [hr]
      refine isAllocated_setContents h hd ?_
      rw [hc]
      exact ⟨fun _ => ⟨members, rfl⟩, fun _ => ⟨_, rfl⟩⟩

end Catalog

theorem Machine.isAllocated_catalog (user : String) (history : List (String × Call)) :
    ((Machine.initial user).after history).catalog.IsAllocated :=
  Machine.after_keeps_catalog Catalog.isAllocated_kept Catalog.isAllocated_empty history

/-! ## Patterns that are names -/

namespace Pattern

theorem tail_mem_rests {α : Type} (a : α) (r : List α) : r ∈ rests (a :: r) := by
  cases r <;> simp [rests]

theorem matchesBytes_self (text : List UInt8) : matchesBytes text text = true := by
  induction text with
  | nil => rfl
  | cons b r ih =>
    unfold matchesBytes
    split
    · exact List.any_eq_true.2 ⟨r, tail_mem_rests b r, ih⟩
    · simp [ih]

theorem matchesQualifiers_self (qualifiers : List (List Char)) :
    matchesQualifiers qualifiers qualifiers = true := by
  induction qualifiers with
  | nil => rfl
  | cons q r ih =>
    unfold matchesQualifiers
    split
    · exact List.any_eq_true.2 ⟨r, tail_mem_rests q r, ih⟩
    · simp [ih, matchesQualifier, matchesBytes_self]

/-- A pattern matches itself, wildcards or not. -/
theorem accepts_self (pattern : String) : accepts pattern pattern = true :=
  matchesQualifiers_self _

end Pattern

/-! ## Listings -/

namespace Catalog

/-- What a listing says about a data set. -/
def entry (name : String) (d : DataSet) : DataSetEntry :=
  { name := some name, dsorg := d.attributes.dsorg, volser := some d.volser, migr := some false,
    recfm := d.attributes.recfm }

theorem mem_list_iff {c : Catalog} {pattern : String} {e : DataSetEntry} :
    e ∈ c.list pattern ↔ ∃ name d, c.entries.get? name = some d ∧
      Pattern.accepts (Text.upper pattern) name = true ∧ e = entry name d := by
  unfold list
  rw [List.mem_map]
  constructor
  · rintro ⟨⟨name, d⟩, hmem, rfl⟩
    obtain ⟨hentry, haccepts⟩ := List.mem_filter.1 hmem
    exact ⟨name, d, (Table.find_eq_some_iff c.entries.ascending).2 hentry, haccepts, rfl⟩
  · rintro ⟨name, d, hd, haccepts, rfl⟩
    have hentry := (Table.find_eq_some_iff c.entries.ascending).1 hd
    exact ⟨(name, d), List.mem_filter.2 ⟨hentry, haccepts⟩, rfl⟩

/-- How a catalog represents data sets. -/
structure IsRepresentation (c : Catalog) : Prop where
  name : ∀ name d, c.entries.get? name = some d → IsCatalogedName name
  attributes : ∀ name d, c.entries.get? name = some d → d.attributes.IsComplete
  shape : ∀ name d, c.entries.get? name = some d →
    (d.contents.HasMembers ↔ IsPo d.attributes.dsorg)
  member : ∀ name d members, c.entries.get? name = some d → d.contents = .partitioned members →
    ∀ member ∈ members.keys, HasNoLower member

/-- Each cataloged name is listed, and wherever it is, the organization beside
it tells how the data set is read. -/
structure TellsOrganization (c : Catalog) : Prop where
  listed : ∀ name d, c.entries.get? name = some d → ∃ e ∈ c.list name, e.name = some name
  members_iff : ∀ name d, c.entries.get? name = some d →
    ∀ pattern, ∀ e ∈ c.list pattern, e.name = some name →
      ((∃ entries, c.members name = .ok entries) ↔ IsPo e.dsorg)
  read_iff : ∀ name d, c.entries.get? name = some d →
    ∀ pattern, ∀ e ∈ c.list pattern, e.name = some name →
      ((∃ text, c.read name = .ok text) ↔ ¬IsPo e.dsorg)

variable {c : Catalog}

theorem isRepresentation (hcanonical : c.IsCanonical) (hallocated : c.IsAllocated) :
    c.IsRepresentation where
  name name d hd := by
    obtain ⟨hfault, hupper⟩ := hcanonical.name name d hd
    exact isCatalogedName_of_nameFault? hfault hupper
  attributes name d hd := by
    obtain ⟨a, ha⟩ := (hallocated name d hd).attributes
    rw [ha]
    exact isComplete_allocated a
  shape name d hd := by
    obtain ⟨⟨a, ha⟩, hshape⟩ := hallocated name d hd
    rw [ha] at hshape ⊢
    exact hshape.trans (isPo_allocated_iff a).symm
  member name d members hd hcontents member hmember := by
    have hmembers := hcanonical.contents name d hd
    rw [hcontents] at hmembers
    obtain ⟨text, htext⟩ := Table.mem_keys_iff.1 hmember
    exact hasNoLower_of_upper_eq (hmembers.member member text htext)

theorem members_name_iff {name : String} {d : DataSet} (hd : c.entries.get? name = some d)
    (haddress : Dsn.ofText name = ⟨name, none⟩) :
    (∃ entries, c.members name = .ok entries) ↔ d.contents.HasMembers := by
  simp only [members_eq_ok_iff, haddress]
  constructor
  · rintro ⟨_, other, table, hother, hcontents, _⟩
    cases hother.symm.trans hd
    exact ⟨table, hcontents⟩
  · rintro ⟨table, hcontents⟩
    exact ⟨_, d, table, hd, hcontents, rfl⟩

theorem read_name_iff {name : String} {d : DataSet} (hd : c.entries.get? name = some d)
    (haddress : Dsn.ofText name = ⟨name, none⟩) :
    (∃ text, c.read name = .ok text) ↔ ¬d.contents.HasMembers := by
  simp only [read_eq_ok_iff, haddress, text?_of_entry (t := ⟨name, none⟩) hd]
  cases d.contents with
  | sequential text => simp [Contents.HasMembers, Contents.text?]
  | partitioned members => simp [Contents.HasMembers, Contents.text?]

/-- The entry of a name in a listing shows the organization of its data set. -/
theorem dsorg_of_mem_list {name pattern : String} {d : DataSet} {e : DataSetEntry}
    (hd : c.entries.get? name = some d) (he : e ∈ c.list pattern) (hname : e.name = some name) :
    e.dsorg = d.attributes.dsorg := by
  obtain ⟨other, found, hfound, _, rfl⟩ := mem_list_iff.1 he
  cases hname
  cases hfound.symm.trans hd
  rfl

theorem tellsOrganization (hcanonical : c.IsCanonical) (hrep : c.IsRepresentation) :
    c.TellsOrganization where
  listed name d hd := by
    have haccepts : Pattern.accepts (Text.upper name) name = true := by
      rw [(hcanonical.name name d hd).2]
      exact Pattern.accepts_self name
    exact ⟨entry name d, mem_list_iff.2 ⟨name, d, hd, haccepts, rfl⟩, rfl⟩
  members_iff name d hd pattern e he hname := by
    obtain ⟨hfault, hupper⟩ := hcanonical.name name d hd
    rw [members_name_iff hd (Dsn.ofText_name hfault hupper), hrep.shape name d hd,
      dsorg_of_mem_list hd he hname]
  read_iff name d hd pattern e he hname := by
    obtain ⟨hfault, hupper⟩ := hcanonical.name name d hd
    rw [read_name_iff hd (Dsn.ofText_name hfault hupper), hrep.shape name d hd,
      dsorg_of_mem_list hd he hname]

end Catalog

/-- In the catalog that any run of calls leaves, names, attributes and contents
agree, and listings tell how data sets are read. -/
theorem Machine.catalog_isRepresentation (user : String) (history : List (String × Call)) :
    ((Machine.initial user).after history).catalog.IsRepresentation ∧
      ((Machine.initial user).after history).catalog.TellsOrganization := by
  have hcanonical := Machine.isCanonical_catalog user history
  have hrep := Catalog.isRepresentation hcanonical (Machine.isAllocated_catalog user history)
  exact ⟨hrep, Catalog.tellsOrganization hcanonical hrep⟩

end MvsGateway.Host
