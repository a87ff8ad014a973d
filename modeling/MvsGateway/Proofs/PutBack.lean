import MvsGateway.Proofs.Json.Records
import MvsGateway.Proofs.RoundTrip
import MvsGateway.Proofs.Utf8

/-!
# Putting records back

The records that a get shows are the code points of a text. A put takes such
an array as long as every record is below 256, and refuses it otherwise. So a
text of small code points is put back as it is, any other text is refused, and
in either case the machine is as it was.
-/

namespace MvsGateway

open Host (Machine Dsn Path Call contentTag)
open Http (Route accepted membersEnding putPath)

/-! ## Records of a text -/

/-- Every character has a code point that a record can have. -/
def FitsRecords (content : String) : Prop := ∀ c ∈ content.toList, c.toNat < 256

theorem fitsRecords_iff {content : String} :
    FitsRecords content ↔ (content.toList.all fun c => c.toNat < 256) = true := by
  simp only [List.all_eq_true, decide_eq_true_eq, FitsRecords]

instance (content : String) : Decidable (FitsRecords content) :=
  decidable_of_iff _ fitsRecords_iff.symm

/-- The items that stand for the characters of a text. -/
def recordsOf (content : String) : List Json := content.toList.map fun c => Json.ofNat c.toNat

namespace Body

/-- The body is an array of records and nothing else. -/
def IsRecords (body : Body) (items : List Json) : Prop :=
  body.object? = some [("records", .array items)]

/-- The body that the printer writes for an array of records. -/
def ofRecords (items : List Json) : Body := Utf8.encodeString (Json.render (.ofRecords items))

theorem object?_encodeString {s : String} {fields : Json.Fields}
    (h : Json.read? s = some (.object fields)) : object? (Utf8.encodeString s) = some fields := by
  rw [object?, Utf8.encodeString, Utf8.decode?_encode, Option.bind_some, String.ofList_toList, h]

theorem isRecords_ofRecords (content : String) :
    (ofRecords (recordsOf content)).IsRecords (recordsOf content) := by
  have hsmall : ∀ n ∈ content.toList.map Char.toNat, n < UInt64.size := by
    intro n hn
    obtain ⟨c, _, rfl⟩ := List.mem_map.1 hn
    exact Nat.lt_trans c.val.toNat_lt (by decide)
  have hread := Json.read?_render_ofRecords hsmall
  rw [List.map_map] at hread
  exact object?_encodeString hread

theorem recordChar?_ofNat (c : Char) :
    recordChar? (Json.ofNat c.toNat) = if c.toNat < 256 then some c else none := by
  show (if c.toNat < 256 then some (Char.ofNat c.toNat) else none) = _
  rw [Char.ofNat_toNat]

theorem mapM_recordChar? (chars : List Char) :
    (chars.map fun c => Json.ofNat c.toNat).mapM recordChar? =
      if chars.all fun c => c.toNat < 256 then some chars else none := by
  induction chars with
  | nil => rfl
  | cons c r ih =>
    rw [List.map_cons, List.mapM_cons, recordChar?_ofNat, ih, List.all_cons]
    by_cases hc : c.toNat < 256
    · simp only [hc, decide_true, Bool.true_and, if_true]
      split
      · rfl
      · rfl
    · simp only [hc, decide_false, Bool.false_and, if_false]
      rfl

theorem recordsText_recordsOf (text : String) :
    recordsText (.array (recordsOf text)) =
      if FitsRecords text then .ok text else .error (.invalid .recordsRange) := by
  have hchars : (recordsOf text).mapM recordChar? =
      if FitsRecords text then some text.toList else none := by
    simp only [recordsOf, mapM_recordChar?, fitsRecords_iff]
  unfold recordsText
  simp only [hchars]
  by_cases hfits : FitsRecords text
  · simp only [if_pos hfits, String.ofList_toList]
  · simp only [if_neg hfits]

/-- A body with the records of a text is taken as that text, if it fits. -/
theorem content_of_isRecords {body : Body} {text : String} (h : body.IsRecords (recordsOf text))
    (hne : text ≠ "") :
    body.content =
      if FitsRecords text then .ok text else .error (.invalid .recordsRange) := by
  have hobject : body.object? = some [("records", .array (recordsOf text))] := h
  have hfield : Json.Fields.get? [("records", .array (recordsOf text))] "records" =
    some (.array (recordsOf text)) := rfl
  simp only [content, hobject, hfield, recordsText_recordsOf]
  by_cases hfits : FitsRecords text
  · rw [if_pos hfits]
    exact if_neg (by simpa using hne)
  · rw [if_neg hfits]
    rfl

end Body

/-! ## Writing what is there -/

namespace Host.Machine

variable {s : Machine} {content tag : String}

/-- The call writes what is there: it changes nothing, and a tag of another
content is all that can be in its way. -/
structure WritesBack (time : String) (call : Call) (s : Machine) (tag content : String) : Prop where
  unchanged : (invoke time call s).2 = s
  accepted : tag = "" ∨ tag = contentTag content →
    (invoke time call s).1 = .ok (.etag (contentTag content))

theorem writesBack_dataSet {dsn : String} (h : s.catalog.read dsn = .ok content)
    (time encoding tag : String) :
    WritesBack time (.writeDataSet dsn content encoding tag) s tag content := by
  have htext := Catalog.read_eq_ok_iff.1 h
  have hwrite := Catalog.write_of_text? content tag htext
  rw [Catalog.putText_self htext] at hwrite
  constructor
  · rw [invoke, onCatalog_snd, hwrite]
    split <;> rfl
  · intro htag
    have hcheck : checkTag dsn tag content = .ok () :=
      checkTag_eq_ok_iff.2 (htag.imp_right Eq.symm)
    rw [invoke, onCatalog_fst, hwrite, hcheck]
    rfl

theorem writesBack_file {path : String} (h : s.files.read path = .ok content)
    (time encoding tag : String) :
    WritesBack time (.writeUnixFile path content encoding tag) s tag content := by
  have hheld := FileTree.read_eq_ok_iff.1 h
  have hwrite := FileTree.write_of_content? content tag s.user hheld
  rw [FileTree.putContent_self hheld] at hwrite
  constructor
  · rw [invoke, onFiles_snd, hwrite]
    split <;> rfl
  · intro htag
    have hcheck : checkTag (Path.ofText path).text tag content = .ok () :=
      checkTag_eq_ok_iff.2 (htag.imp_right Eq.symm)
    rw [invoke, onFiles_fst, hwrite, hcheck]
    rfl

/-! ## Putting what is there -/

/-- What comes of a put of the records of a content that is there. -/
structure PutsBack (s : Machine) (content : String) (q : Query)
    (put : Except RequestError Reply × Machine) : Prop where
  unchanged : put.2 = s
  succeeds : FitsRecords content →
    q.options.etag = none ∨ q.options.etag = some (contentTag content) →
    ∃ reply, put.1 = .ok reply ∧ reply.status = 200
  refused : ¬FitsRecords content → put.1 = .error (.invalid .recordsRange)

variable {r : Request} {q : Query} {call : Call} {time : String}

theorem WritesBack.putsBack (h : WritesBack time call s (q.options.etag.getD "") content)
    (hplan : r.plan = .ok call) (hverb : r.verb = .write) (hfits : FitsRecords content)
    (second : Int) : s.PutsBack content q (r.reply (backend time) second s) where
  unchanged := by
    rw [Request.reply_snd (backend time) second s hplan]
    exact h.unchanged
  succeeds _ hetag := by
    have htag : q.options.etag.getD "" = "" ∨ q.options.etag.getD "" = contentTag content := by
      rcases hetag with hnone | hsome
      · exact .inl (by rw [hnone]; rfl)
      · exact .inr (by rw [hsome]; rfl)
    obtain ⟨fields, message, hwrite⟩ := Reply.write?_etag r (contentTag content)
    rw [Request.reply_of_ok (backend time) second hplan (h.accepted htag)]
    refine ⟨_, Reply.build_eq_ok_iff.2 ?_, Reply.write?_status hwrite⟩
    rw [Reply.of?, hverb]
    exact hwrite
  refused hlarge := absurd hfits hlarge

theorem putsBack_of_refused (hlarge : ¬FitsRecords content) (second : Int) :
    s.PutsBack content q
      (MvsGateway.run (backend time) second (.error (.invalid .recordsRange)) s) where
  unchanged := rfl
  succeeds hfits := absurd hfits hlarge
  refused _ := rfl

/-- The body decides between the two: its content makes the request that
writes back, and an error in it is the answer. -/
theorem putsBack_of_content {body : Body} {request : Except RequestError Request}
    (hcontent : body.content =
      if FitsRecords content then .ok content else .error (.invalid .recordsRange))
    (haccept : body.content = .ok content → ∃ r call, request = .ok r ∧ r.verb = .write ∧
      r.plan = .ok call ∧ WritesBack time call s (q.options.etag.getD "") content)
    (hrefuse : ∀ e, body.content = .error e → request = .error e) (second : Int) :
    s.PutsBack content q (MvsGateway.run (backend time) second request s) := by
  by_cases hfits : FitsRecords content
  · rw [if_pos hfits] at hcontent
    obtain ⟨r, call, hr, hverb, hplan, hwrites⟩ := haccept hcontent
    rw [hr]
    exact hwrites.putsBack hplan hverb hfits second
  · rw [if_neg hfits] at hcontent
    rw [hrefuse _ hcontent]
    exact putsBack_of_refused hfits second

end Host.Machine

namespace Endpoint

variable {s : Machine} {content raw : String} {body : Body}

theorem writeDataSet_putsBack {target : Target} {dsn : String}
    (hbody : body.IsRecords (recordsOf content)) (hne : content ≠ "")
    (htarget : Target.ofDataSetPath raw = .ok target) (hdsn : target.dsn? = some dsn)
    (hread : s.catalog.read dsn = .ok content) (time : String) (second : Int) (q : Query) :
    s.PutsBack content q
      (run (Machine.backend time) second (writeDataSet.accept raw q body) s) := by
  obtain ⟨haccept, hrefuse⟩ := writeDataSetRequest_of_content htarget q body
  refine Machine.putsBack_of_content (Body.content_of_isRecords hbody hne) ?_ hrefuse second
  intro hcontent
  obtain ⟨r, hr⟩ := haccept content hcontent
  obtain ⟨hverb, hpath, hoptions, data, hdata, hpayload⟩ := writeDataSetRequest_eq_ok hr
  cases hpath.symm.trans htarget
  cases hdata.symm.trans hcontent
  have hplan := Request.plan_writeDataSet hverb hdsn hpayload
  rw [hoptions] at hplan
  exact ⟨r, _, hr, hverb, hplan, Machine.writesBack_dataSet hread _ _ _⟩

theorem putFile_putsBack (hbody : body.IsRecords (recordsOf content)) (hne : content ≠ "")
    (hread : s.files.read (Target.absolutePath raw) = .ok content) (time : String)
    (second : Int) (q : Query) :
    s.PutsBack content q (run (Machine.backend time) second (putFile.accept raw q body) s) := by
  have hplain : ∀ fields, body.object? = some fields → fields.get? "request" = none := by
    intro fields hfields
    cases hbody.symm.trans hfields
    rfl
  obtain ⟨haccept, hrefuse⟩ := writeFileRequest_of_content raw q body
  show s.PutsBack content q (run _ _ (putFileRequest raw q body) s)
  rw [putFileRequest_of_no_request hplain]
  refine Machine.putsBack_of_content (Body.content_of_isRecords hbody hne) ?_ hrefuse second
  intro hcontent
  obtain ⟨r, hr⟩ := haccept content hcontent
  obtain ⟨hverb, htarget, hoptions, data, hdata, hpayload⟩ := writeFileRequest_eq_ok hr
  cases hdata.symm.trans hcontent
  have hplan := Request.plan_writeFile hverb htarget hpayload
  rw [hoptions] at hplan
  exact ⟨r, _, hr, hverb, hplan, Machine.writesBack_file hread _ _ _⟩

end Endpoint

/-! ## Getting and putting back -/

/-- A get shows the items as records, and changes nothing. -/
def Host.Machine.GetsRecords (s : Machine) (items : List Json)
    (get : Except RequestError Reply × Machine) : Prop :=
  ∃ reply, get = (.ok reply, s) ∧ reply.status = 200 ∧
    reply.body.get? "records" = some (.array items)

/-- Every get of a text as bytes shows the records of the text, which the
printer can put into a body. A put of any such body on the same address leaves
the machine as it is. It succeeds where every record fits a byte, and is
refused where one does not. -/
theorem records_are_put_back (s : Machine) (content : String) (hne : content ≠ "") :
    (Body.ofRecords (recordsOf content)).IsRecords (recordsOf content) ∧
      (∀ body : Body, body.IsRecords (recordsOf content) → body.content =
        if FitsRecords content then .ok content else .error (.invalid .recordsRange)) ∧
      (∀ raw target dsn, Target.ofDataSetPath raw = .ok target → target.dsn? = some dsn →
        s.catalog.read dsn = .ok content →
        (Text.before? membersEnding raw = none →
          ∀ time second tail q unread, q.options.bytesFormat = true →
            s.GetsRecords (recordsOf content) (run (Machine.backend time) second
              (accepted (.dataSet tail) .readDataSet raw q unread) s)) ∧
        ∀ body, body.IsRecords (recordsOf content) → ∀ time second tail q, s.PutsBack content q
          (run (Machine.backend time) second (accepted (.dataSet tail) .writeDataSet raw q body)
            s)) ∧
      ∀ raw, s.files.read (Target.absolutePath raw) = .ok content →
        (∀ time second tail q unread, q.options.bytesFormat = true →
          s.GetsRecords (recordsOf content) (run (Machine.backend time) second
            (accepted (.file tail) .readUnixFile raw q unread) s)) ∧
        ∀ body, body.IsRecords (recordsOf content) → ∀ time second route path q,
          putPath route path q = .ok raw → s.PutsBack content q
            (run (Machine.backend time) second (accepted route .putFile path q body) s) := by
  refine ⟨Body.isRecords_ofRecords content, ?_, ?_, ?_⟩
  · exact fun body hbody => Body.content_of_isRecords hbody hne
  · intro raw target dsn htarget hdsn hread
    constructor
    · intro hending time second tail q unread hbytes
      have hholds := Machine.dataSetHolds_of_text? (Host.Catalog.read_eq_ok_iff.1 hread)
      obtain ⟨get, hget, hshows, _⟩ :=
        Endpoint.readDataSet_shows time second q unread htarget hdsn hholds
      have haccepted : accepted (.dataSet tail) .readDataSet raw q unread =
          Endpoint.readDataSet.accept raw q unread := by
        simp only [accepted, hending]
      rw [haccepted]
      exact ⟨get, hget, hshows.status, hshows.bytes hbytes⟩
    · intro body hbody time second tail q
      exact Endpoint.writeDataSet_putsBack hbody hne htarget hdsn hread time second q
  · intro raw hread
    constructor
    · intro time second tail q unread hbytes
      have hholds := Machine.fileHolds_of_content? (Host.FileTree.read_eq_ok_iff.1 hread)
      obtain ⟨get, hget, hshows⟩ := Endpoint.readUnixFile_shows time second q unread hholds
      exact ⟨get, hget, hshows.status, hshows.bytes hbytes⟩
    · intro body hbody time second route path q hpath
      rw [Http.accepted_putFile hpath]
      exact Endpoint.putFile_putsBack hbody hne hread time second q

/-- The query that asks for bytes. -/
def Query.asBytes : Query := [("response-format-bytes", "true")]

/-- A machine with one data set, `A`, that holds one character past U+00FF. -/
def Host.Machine.withWideText : Machine :=
  (Machine.initial "U").after
    [("", .createDataSet "A" {}), ("", .writeDataSet "A" "Ā" "" "")]

/-- The records of `X` are put back, and those of a wider character are not. -/
theorem records_of_texts_are_put_back :
    (Machine.withText.GetsRecords (recordsOf "X")
        (run (Machine.backend "") 0 (accepted (.dataSet "A") .readDataSet "A" .asBytes [])
          Machine.withText) ∧
      ∃ reply, run (Machine.backend "") 0
        (accepted (.dataSet "A") .writeDataSet "A" [] (Body.ofRecords (recordsOf "X")))
        Machine.withText = (.ok reply, Machine.withText)) ∧
    run (Machine.backend "") 0
      (accepted (.dataSet "A") .writeDataSet "A" [] (Body.ofRecords (recordsOf "Ā")))
      Machine.withWideText = (.error (.invalid .recordsRange), Machine.withWideText) := by
  constructor
  · obtain ⟨hprinted, _, hdataSet, _⟩ := records_are_put_back Machine.withText "X" (by decide)
    obtain ⟨hget, hput⟩ := hdataSet "A" _ "A" rfl rfl rfl
    have hback := hput _ hprinted "" 0 "A" []
    obtain ⟨reply, hreply, _⟩ := hback.succeeds (by decide) (.inl rfl)
    exact ⟨hget rfl _ _ _ _ _ rfl, reply, Prod.ext hreply hback.unchanged⟩
  · obtain ⟨hprinted, _, hdataSet, _⟩ := records_are_put_back Machine.withWideText "Ā" (by decide)
    obtain ⟨_, hput⟩ := hdataSet "A" _ "A" rfl rfl rfl
    have hback := hput _ hprinted "" 0 "A" []
    exact Prod.ext (hback.refused (by decide)) hback.unchanged

/-- A get shows the record 256, which no put takes. -/
theorem wide_record_is_shown_and_refused :
    Machine.withWideText.catalog.read "A" = .ok "Ā" ∧
    Machine.withWideText.GetsRecords [Json.ofNat 256]
      (run (Machine.backend "") 0 (accepted (.dataSet "A") .readDataSet "A" .asBytes [])
        Machine.withWideText) ∧
    (Body.ofRecords [Json.ofNat 256]).content = .error (.invalid .recordsRange) := by
  have hholds : Machine.DataSetHolds (Dsn.ofText "A") Machine.withWideText "Ā" :=
    Machine.dataSetHolds_of_text? (Host.Catalog.read_eq_ok_iff.1 rfl)
  have htarget : Target.ofDataSetPath "A" = .ok (.dataSet "A") := rfl
  obtain ⟨get, hget, hshows, _⟩ :=
    Endpoint.readDataSet_shows "" 0 .asBytes [] htarget rfl hholds
  refine ⟨rfl, ⟨get, hget, hshows.status, hshows.bytes rfl⟩, ?_⟩
  exact Body.content_of_isRecords (Body.isRecords_ofRecords "Ā") (by decide)

end MvsGateway
