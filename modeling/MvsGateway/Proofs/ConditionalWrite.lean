import MvsGateway.Proofs.Catalog.Outcome
import MvsGateway.Proofs.FileTree.Outcome
import MvsGateway.Proofs.Pipeline

/-!
# Writes that expect a tag

The tag of a content is accepted by a later write exactly as long as the
content has it, whatever happened in between. So a writer that names the tag
it has seen does not write over a content of another tag. The tags that the
service reports are such tags.
-/

namespace MvsGateway.Host.Machine

/-! ## Tags on the machine -/

/-- The data set or member holds a text, however its name is written. -/
def DataSetHolds (t : Dsn) (s : Machine) (text : String) : Prop :=
  ∀ dsn, Dsn.ofText dsn = t → s.catalog.read dsn = .ok text

def FileHolds (p : Path) (s : Machine) (text : String) : Prop :=
  ∀ path, Path.ofText path = p → s.files.read path = .ok text

/-- The call puts `data` into the place of `held`, if that has the tag. If not,
it is refused for its tag and changes nothing. -/
structure WritesIfTagged (time : String) (call : Call) (s : Machine) (tag held data : String)
    (Holds : Machine → String → Prop) : Prop where
  accepted_iff : (∃ output, (invoke time call s).1 = .ok output) ↔ contentTag held = tag
  accepted : ∀ output, (invoke time call s).1 = .ok output →
    output = .etag (contentTag data) ∧ Holds (invoke time call s).2 data
  refused : ∀ e, (invoke time call s).1 = .error e →
    (∃ name, e = .etagMismatch name tag (contentTag held)) ∧ (invoke time call s).2 = s

/-- Whatever calls come in between, a write to the data set or member that
expects the tag is accepted exactly if the text that it finds has the tag. -/
def GuardsDataSet (s : Machine) (t : Dsn) (tag : String) : Prop :=
  ∀ history time dsn data encoding held, Dsn.ofText dsn = t →
    (s.after history).catalog.read dsn = .ok held →
    WritesIfTagged time (.writeDataSet dsn data encoding tag) (s.after history) tag held data
      (DataSetHolds t)

def GuardsFile (s : Machine) (p : Path) (tag : String) : Prop :=
  ∀ history time path data encoding held, Path.ofText path = p →
    (s.after history).files.read path = .ok held →
    WritesIfTagged time (.writeUnixFile path data encoding tag) (s.after history) tag held data
      (FileHolds p)

/-- The tag stands for the text of the data set or member, and guards it from
now on. -/
structure TagsDataSet (s : Machine) (t : Dsn) (tag content : String) : Prop where
  holds : DataSetHolds t s content
  tag_eq : tag = contentTag content
  guards : s.GuardsDataSet t tag

structure TagsFile (s : Machine) (p : Path) (tag content : String) : Prop where
  holds : FileHolds p s content
  tag_eq : tag = contentTag content
  guards : s.GuardsFile p tag

theorem writesIfTagged_of_invoke {time : String} {call : Call} {s next : Machine}
    {name tag held data : String} {Holds : Machine → String → Prop} (htag : tag ≠ "")
    (hinvoke : invoke time call s =
      match checkTag name tag held with
      | .error e => (.error e, s)
      | .ok () => (.ok (.etag (contentTag data)), next))
    (hnext : Holds next data) : WritesIfTagged time call s tag held data Holds := by
  cases hcheck : checkTag name tag held with
  | ok =>
    rw [hcheck] at hinvoke
    have hsame : contentTag held = tag := (checkTag_eq_ok_iff.1 hcheck).resolve_left htag
    refine ⟨⟨fun _ => hsame, fun _ => ⟨_, by rw [hinvoke]⟩⟩, ?_, ?_⟩
    · intro output houtput
      rw [hinvoke] at houtput ⊢
      cases houtput
      exact ⟨rfl, hnext⟩
    · intro e he
      rw [hinvoke] at he
      cases he
  | error e =>
    rw [hcheck] at hinvoke
    obtain ⟨_, hother, rfl⟩ := checkTag_eq_error_iff.1 hcheck
    refine ⟨⟨?_, fun hsame => absurd hsame hother⟩, ?_, ?_⟩
    · rintro ⟨output, houtput⟩
      rw [hinvoke] at houtput
      cases houtput
    · intro output houtput
      rw [hinvoke] at houtput
      cases houtput
    · intro e he
      rw [hinvoke] at he ⊢
      cases he
      exact ⟨⟨name, rfl⟩, rfl⟩

theorem dataSetHolds_of_text? {t : Dsn} {s : Machine} {text : String}
    (h : s.catalog.text? t = some text) : DataSetHolds t s text := by
  rintro dsn rfl
  exact Catalog.read_eq_ok_iff.2 h

theorem fileHolds_of_content? {p : Path} {s : Machine} {text : String}
    (h : s.files.content? p = some text) : FileHolds p s text := by
  rintro path rfl
  exact FileTree.read_eq_ok_iff.2 h

theorem guardsDataSet_contentTag (s : Machine) (t : Dsn) (content : String) :
    s.GuardsDataSet t (contentTag content) := by
  rintro history time dsn data encoding held rfl hheld
  generalize s.after history = s' at hheld ⊢
  have htext := Catalog.read_eq_ok_iff.1 hheld
  have hinvoke : invoke time (.writeDataSet dsn data encoding (contentTag content)) s' =
      match checkTag dsn (contentTag content) held with
      | .error e => (.error e, s')
      | .ok () => (.ok (.etag (contentTag data)),
        { s' with catalog := s'.catalog.putText (Dsn.ofText dsn) data }) := by
    rw [invoke, Catalog.write_of_text? data _ htext]
    cases checkTag dsn (contentTag content) held <;> rfl
  refine writesIfTagged_of_invoke (contentTag_ne_empty content) hinvoke ?_
  apply dataSetHolds_of_text?
  rw [Catalog.text?_putText (Catalog.access_of_text? htext), if_pos rfl]

theorem guardsFile_contentTag (s : Machine) (p : Path) (content : String) :
    s.GuardsFile p (contentTag content) := by
  rintro history time path data encoding held rfl hheld
  generalize s.after history = s' at hheld ⊢
  have hcontent := FileTree.read_eq_ok_iff.1 hheld
  have hinvoke : invoke time (.writeUnixFile path data encoding (contentTag content)) s' =
      match checkTag (Path.ofText path).text (contentTag content) held with
      | .error e => (.error e, s')
      | .ok () => (.ok (.etag (contentTag data)),
        { s' with files := s'.files.putContent (Path.ofText path) data }) := by
    rw [invoke, FileTree.write_of_content? data _ _ hcontent]
    cases checkTag (Path.ofText path).text (contentTag content) held <;> rfl
  refine writesIfTagged_of_invoke (contentTag_ne_empty content) hinvoke ?_
  apply fileHolds_of_content?
  rw [FileTree.content?_putContent hcontent, if_pos rfl]

theorem tagsDataSet_of_holds {s : Machine} {t : Dsn} {content : String}
    (h : DataSetHolds t s content) : s.TagsDataSet t (contentTag content) content :=
  ⟨h, rfl, guardsDataSet_contentTag s t content⟩

theorem tagsFile_of_holds {s : Machine} {p : Path} {content : String}
    (h : FileHolds p s content) : s.TagsFile p (contentTag content) content :=
  ⟨h, rfl, guardsFile_contentTag s p content⟩

/-! ## Tags of accepted writes -/

theorem writeDataSet_of_ok {time dsn data encoding etag : String} {s next : Machine}
    {output : Output}
    (h : invoke time (.writeDataSet dsn data encoding etag) s = (.ok output, next)) :
    output = .etag (contentTag data) ∧ DataSetHolds (Dsn.ofText dsn) next data := by
  rw [invoke] at h
  rcases s.catalog.write_cases dsn data etag with
    ⟨_, hr, _⟩ | ⟨_, _, _, _, hr⟩ | ⟨haccess, _, hr⟩
  · rw [hr] at h
    cases h
  · rw [hr] at h
    cases h
  · rw [hr] at h
    cases h
    refine ⟨rfl, ?_⟩
    apply dataSetHolds_of_text?
    show (s.catalog.putText (Dsn.ofText dsn) data).text? (Dsn.ofText dsn) = some data
    rw [Catalog.text?_putText haccess, if_pos rfl]

theorem writeUnixFile_of_ok {time path data encoding etag : String} {s next : Machine}
    {output : Output}
    (h : invoke time (.writeUnixFile path data encoding etag) s = (.ok output, next)) :
    output = .etag (contentTag data) ∧ FileHolds (Path.ofText path) next data := by
  rw [invoke] at h
  rcases s.files.write_cases path data etag s.user with
    ⟨_, hr, _⟩ | ⟨_, _, _, hr⟩ | ⟨_, _, hr⟩ | ⟨held, hheld, _, hr⟩
  · rw [hr] at h
    cases h
  · rw [hr] at h
    cases h
  · rw [hr] at h
    cases h
    refine ⟨rfl, ?_⟩
    apply fileHolds_of_content?
    show (s.files.put (Path.ofText path) _).content? (Path.ofText path) = some data
    rw [FileTree.content?_put, if_pos rfl]
    rfl
  · rw [hr] at h
    cases h
    refine ⟨rfl, ?_⟩
    apply fileHolds_of_content?
    show (s.files.putContent (Path.ofText path) data).content? (Path.ofText path) = some data
    rw [FileTree.content?_putContent hheld, if_pos rfl]

end MvsGateway.Host.Machine

namespace MvsGateway

open Host (Machine Dsn Path contentTag)

/-! ## Tags of the service -/

namespace Endpoint

variable {time : String} {second : Int} {raw : String} {q : Query} {body : Body} {r : Request}
  {s next : Machine} {reply : Reply}

theorem readDataSet_reports (wanted : q.options.returnEtag = true)
    (h : run (Machine.backend time) second (readDataSet.accept raw q body) s =
      (.ok reply, next)) :
    ∃ target dsn content, Target.ofDataSetPath raw = .ok target ∧ target.dsn? = some dsn ∧
      Machine.DataSetHolds (Dsn.ofText dsn) next content ∧
      reply.body.get? "etag" = some (.string (contentTag content)) := by
  obtain ⟨r, haccept, hreply⟩ := run_eq_ok h
  obtain ⟨hverb, htarget, hoptions⟩ := dataSetRequest_eq_ok haccept
  obtain ⟨dsn, hdsn⟩ := Request.dsn_of_path htarget
  have hplan := Request.plan_readDataSet hverb hdsn
  obtain ⟨output, hinvoke, hbuild⟩ := Request.reply_eq_ok hplan hreply
  obtain ⟨hanswer, rfl⟩ := Prod.mk.inj hinvoke
  obtain ⟨content, hread, rfl⟩ := Machine.answer_eq_ok_iff.1 hanswer
  refine ⟨r.target, dsn, content, htarget, hdsn, ?_, ?_⟩
  · exact Machine.dataSetHolds_of_text? (Host.Catalog.read_eq_ok_iff.1 hread)
  · rw [Reply.build_eq_ok_iff, Reply.of?, hverb] at hbuild
    exact Reply.etag?_read hdsn (by rw [hoptions]; exact wanted) hbuild

theorem writeDataSet_reports
    (h : run (Machine.backend time) second (writeDataSet.accept raw q body) s =
      (.ok reply, next)) :
    ∃ target dsn content, Target.ofDataSetPath raw = .ok target ∧ target.dsn? = some dsn ∧
      body.content = .ok content ∧ Machine.DataSetHolds (Dsn.ofText dsn) next content ∧
      reply.body.get? "etag" = some (.string (contentTag content)) := by
  obtain ⟨r, haccept, hreply⟩ := run_eq_ok h
  obtain ⟨hverb, htarget, _, content, hcontent, hpayload⟩ := writeDataSetRequest_eq_ok haccept
  obtain ⟨dsn, hdsn⟩ := Request.dsn_of_path htarget
  have hplan := Request.plan_writeDataSet hverb hdsn hpayload
  obtain ⟨output, hinvoke, hbuild⟩ := Request.reply_eq_ok hplan hreply
  rw [Machine.backend_invoke] at hinvoke
  obtain ⟨rfl, hholds⟩ := Machine.writeDataSet_of_ok hinvoke
  refine ⟨r.target, dsn, content, htarget, hdsn, hcontent, hholds, ?_⟩
  rw [Reply.build_eq_ok_iff, Reply.of?, hverb] at hbuild
  exact Reply.etag?_write (Host.contentTag_ne_empty content) hbuild

theorem putFile_reports (haccept : putFile.accept raw q body = .ok r) (hverb : r.verb = .write)
    (h : run (Machine.backend time) second (putFile.accept raw q body) s = (.ok reply, next)) :
    ∃ content, body.content = .ok content ∧
      Machine.FileHolds (Path.ofText (Target.absolutePath raw)) next content ∧
      reply.body.get? "etag" = some (.string (contentTag content)) := by
  rw [haccept] at h
  obtain ⟨_, htarget, _, content, hcontent, hpayload⟩ :=
    writeFileRequest_eq_ok (putFileRequest_write haccept hverb)
  have hplan := Request.plan_writeFile hverb htarget hpayload
  obtain ⟨output, hinvoke, hbuild⟩ := Request.reply_eq_ok hplan h
  rw [Machine.backend_invoke] at hinvoke
  obtain ⟨rfl, hholds⟩ := Machine.writeUnixFile_of_ok hinvoke
  refine ⟨content, hcontent, hholds, ?_⟩
  rw [Reply.build_eq_ok_iff, Reply.of?, hverb] at hbuild
  exact Reply.etag?_write (Host.contentTag_ne_empty content) hbuild

/-! A put that names a tag succeeds exactly while the text has that tag. -/

theorem writeDataSet_succeeds_iff {dsn content held : String}
    (haccept : writeDataSet.accept raw q body = .ok r) (hdsn : r.target.dsn? = some dsn)
    (hetag : q.options.etag = some (contentTag content))
    (hheld : s.catalog.read dsn = .ok held) :
    (∃ reply, (run (Machine.backend time) second (writeDataSet.accept raw q body) s).1 =
      .ok reply) ↔ contentTag held = contentTag content := by
  obtain ⟨hverb, _, hoptions, data, _, hpayload⟩ := writeDataSetRequest_eq_ok haccept
  have hplan : r.plan = .ok (.writeDataSet dsn data (r.options.encoding.getD "")
      (contentTag content)) := by
    rw [Request.plan_writeDataSet hverb hdsn hpayload, hoptions, hetag]
    rfl
  rw [haccept, ← Machine.services_backend]
  show (∃ reply, (r.reply _ second s).1 = _) ↔ _
  rw [Request.reply_succeeds_iff _ second s hplan, Machine.services_invoke]
  have hguards := Machine.guardsDataSet_contentTag s (Dsn.ofText dsn) content
  exact (hguards [] time dsn data _ held rfl hheld).accepted_iff

theorem putFile_succeeds_iff {content held : String}
    (haccept : putFile.accept raw q body = .ok r) (hverb : r.verb = .write)
    (hetag : q.options.etag = some (contentTag content))
    (hheld : s.files.read (Target.absolutePath raw) = .ok held) :
    (∃ reply, (run (Machine.backend time) second (putFile.accept raw q body) s).1 =
      .ok reply) ↔ contentTag held = contentTag content := by
  obtain ⟨_, htarget, hoptions, data, _, hpayload⟩ :=
    writeFileRequest_eq_ok (putFileRequest_write haccept hverb)
  have hplan : r.plan = .ok (.writeUnixFile (Target.absolutePath raw) data
      (r.options.encoding.getD "") (contentTag content)) := by
    rw [Request.plan_writeFile hverb htarget hpayload, hoptions, hetag]
    rfl
  rw [haccept, ← Machine.services_backend]
  show (∃ reply, (r.reply _ second s).1 = _) ↔ _
  rw [Request.reply_succeeds_iff _ second s hplan, Machine.services_invoke]
  have hguards := Machine.guardsFile_contentTag s (Path.ofText (Target.absolutePath raw)) content
  exact (hguards [] time _ data _ held rfl hheld).accepted_iff

end Endpoint

/-- What the host reads out has a tag that guards it, and so has what a write
puts there. The tag that is reported for either, by the host or by the service,
is that one, and the service takes it for its own writes in turn. -/
theorem tags_guard_contents (s : Machine) :
    (∀ dsn content, s.catalog.read dsn = .ok content →
      s.TagsDataSet (Dsn.ofText dsn) (contentTag content) content) ∧
    (∀ path content, s.files.read path = .ok content →
      s.TagsFile (Path.ofText path) (contentTag content) content) ∧
    (∀ time dsn data encoding etag output next,
      Machine.invoke time (.writeDataSet dsn data encoding etag) s = (.ok output, next) →
      ∃ tag, output = .etag tag ∧ next.TagsDataSet (Dsn.ofText dsn) tag data) ∧
    (∀ time path data encoding etag output next,
      Machine.invoke time (.writeUnixFile path data encoding etag) s = (.ok output, next) →
      ∃ tag, output = .etag tag ∧ next.TagsFile (Path.ofText path) tag data) ∧
    (∀ time second raw q body reply next, q.options.returnEtag = true →
      run (Machine.backend time) second (Endpoint.readDataSet.accept raw q body) s =
        (.ok reply, next) →
      ∃ target dsn tag content, Target.ofDataSetPath raw = .ok target ∧
        target.dsn? = some dsn ∧ reply.body.get? "etag" = some (.string tag) ∧
        next.TagsDataSet (Dsn.ofText dsn) tag content) ∧
    (∀ time second raw q body reply next,
      run (Machine.backend time) second (Endpoint.writeDataSet.accept raw q body) s =
        (.ok reply, next) →
      ∃ target dsn tag content, Target.ofDataSetPath raw = .ok target ∧
        target.dsn? = some dsn ∧ body.content = .ok content ∧
        reply.body.get? "etag" = some (.string tag) ∧
        next.TagsDataSet (Dsn.ofText dsn) tag content) ∧
    (∀ time second raw q body r reply next,
      Endpoint.putFile.accept raw q body = .ok r → r.verb = .write →
      run (Machine.backend time) second (Endpoint.putFile.accept raw q body) s =
        (.ok reply, next) →
      ∃ tag content, body.content = .ok content ∧
        reply.body.get? "etag" = some (.string tag) ∧
        next.TagsFile (Path.ofText (Target.absolutePath raw)) tag content) ∧
    (∀ time second raw q body r dsn content held,
      Endpoint.writeDataSet.accept raw q body = .ok r → r.target.dsn? = some dsn →
      q.options.etag = some (contentTag content) → s.catalog.read dsn = .ok held →
      ((∃ reply, (run (Machine.backend time) second (Endpoint.writeDataSet.accept raw q body)
        s).1 = .ok reply) ↔ contentTag held = contentTag content)) ∧
    ∀ time second raw q body r content held,
      Endpoint.putFile.accept raw q body = .ok r → r.verb = .write →
      q.options.etag = some (contentTag content) →
      s.files.read (Target.absolutePath raw) = .ok held →
      ((∃ reply, (run (Machine.backend time) second (Endpoint.putFile.accept raw q body)
        s).1 = .ok reply) ↔ contentTag held = contentTag content) := by
  refine ⟨?_, ?_, ?_, ?_, ?_, ?_, ?_, ?_, ?_⟩
  · intro dsn content hread
    apply Machine.tagsDataSet_of_holds
    exact Machine.dataSetHolds_of_text? (Host.Catalog.read_eq_ok_iff.1 hread)
  · intro path content hread
    apply Machine.tagsFile_of_holds
    exact Machine.fileHolds_of_content? (Host.FileTree.read_eq_ok_iff.1 hread)
  · intro time dsn data encoding etag output next hinvoke
    obtain ⟨rfl, hholds⟩ := Machine.writeDataSet_of_ok hinvoke
    exact ⟨_, rfl, Machine.tagsDataSet_of_holds hholds⟩
  · intro time path data encoding etag output next hinvoke
    obtain ⟨rfl, hholds⟩ := Machine.writeUnixFile_of_ok hinvoke
    exact ⟨_, rfl, Machine.tagsFile_of_holds hholds⟩
  · intro time second raw q body reply next wanted hrun
    obtain ⟨target, dsn, content, htarget, hdsn, hholds, htag⟩ :=
      Endpoint.readDataSet_reports wanted hrun
    exact ⟨target, dsn, _, content, htarget, hdsn, htag, Machine.tagsDataSet_of_holds hholds⟩
  · intro time second raw q body reply next hrun
    obtain ⟨target, dsn, content, htarget, hdsn, hcontent, hholds, htag⟩ :=
      Endpoint.writeDataSet_reports hrun
    exact ⟨target, dsn, _, content, htarget, hdsn, hcontent, htag,
      Machine.tagsDataSet_of_holds hholds⟩
  · intro time second raw q body r reply next haccept hverb hrun
    obtain ⟨content, hcontent, hholds, htag⟩ := Endpoint.putFile_reports haccept hverb hrun
    exact ⟨_, content, hcontent, htag, Machine.tagsFile_of_holds hholds⟩
  · intro time second raw q body r dsn content held haccept hdsn hetag hheld
    exact Endpoint.writeDataSet_succeeds_iff haccept hdsn hetag hheld
  · intro time second raw q body r content held haccept hverb hetag hheld
    exact Endpoint.putFile_succeeds_iff haccept hverb hetag hheld

/-- A machine with one data set, `A`, that holds the text `X`. -/
def Host.Machine.withText : Machine :=
  (Machine.initial "U").after
    [("", .createDataSet "A" {}), ("", .writeDataSet "A" "X" "" "")]

/-- The tag of `X` is accepted while `X` is there, and refused once `Y` is. -/
theorem tag_of_text_guards_it :
    (∃ output, (Machine.invoke "" (.writeDataSet " a " "Z" "" (contentTag "X"))
      Machine.withText).1 = .ok output) ∧
    ¬∃ output, (Machine.invoke "" (.writeDataSet " a " "Z" "" (contentTag "X"))
      (Machine.withText.after [("", .writeDataSet "a" "Y" "" "")])).1 = .ok output := by
  obtain ⟨hread, _⟩ := tags_guard_contents Machine.withText
  have hguards := (hread "A" "X" rfl).guards
  constructor
  · exact (hguards [] "" " a " "Z" "" "X" rfl rfl).accepted_iff.2 rfl
  · rw [(hguards [("", .writeDataSet "a" "Y" "" "")] "" " a " "Z" "" "Y" rfl rfl).accepted_iff]
    decide +kernel

end MvsGateway
