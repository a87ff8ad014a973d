import MvsGateway.Proofs.Catalog.Outcome
import MvsGateway.Proofs.FileTree.Attributes
import MvsGateway.Proofs.Pipeline
import MvsGateway.Proofs.Request.Accepted
import MvsGateway.Proofs.Run

/-!
# What clients count on in a method

A GET leaves the machine as it is. A PUT of content, mode, owner or tag that
expects no tag may be sent again: the machine is then as after the first time,
and the response is the same, be it a success or a refusal. For a machine both
are properties of single calls. The first belongs to the calls that only ask,
the second to those that set something to a value of their own.
-/

namespace MvsGateway

/-! ## Catalogs and file trees -/

namespace Host

/-- A second write finds the text that the first one left, or is refused like
it. -/
theorem Catalog.write_write (c : Catalog) (dsn data : String) :
    (c.write dsn data "").2.write dsn data "" = c.write dsn data "" := by
  rcases c.write_cases dsn data "" with ⟨e, hr, _⟩ | ⟨_, _, hexpected, _⟩ | ⟨haccess, _, hr⟩
  · rw [hr]
    exact hr
  · exact absurd rfl hexpected
  · have hheld : (c.putText (Dsn.ofText dsn) data).text? (Dsn.ofText dsn) = some data := by
      rw [text?_putText haccess, if_pos rfl]
    rw [hr]
    show (c.putText (Dsn.ofText dsn) data).write dsn data "" = _
    rw [write_of_text? data "" hheld, putText_self hheld]
    rfl

namespace FileTree

/-- A second write finds the file that the first one left. It may have created
the file, and then the second one replaces its content. -/
theorem write_write (t : FileTree) (path data owner : String) :
    (t.write path data "" owner).2.write path data "" owner = t.write path data "" owner := by
  have hagain {u : FileTree} (hr : t.write path data "" owner = (.ok (contentTag data), u))
      (hheld : u.content? (Path.ofText path) = some data) :
      (t.write path data "" owner).2.write path data "" owner = t.write path data "" owner := by
    rw [hr]
    show u.write path data "" owner = _
    rw [write_of_content? data "" owner hheld, putContent_self hheld]
    rfl
  rcases t.write_cases path data "" owner with
    ⟨e, hr, _⟩ | ⟨_, hexpected, _⟩ | ⟨_, _, hr⟩ | ⟨held, hheld, _, hr⟩
  · rw [hr]
    exact hr
  · exact absurd rfl hexpected
  · exact hagain hr (by rw [content?_put, if_pos rfl]; rfl)
  · exact hagain hr (by rw [content?_putContent hheld, if_pos rfl])

end FileTree

/-! ## Calls -/

/-- The calls that only ask. -/
def Call.isQuery : Call → Bool
  | .listDataSets _ | .listMembers _ | .readDataSet .. | .listDirectory _ | .readUnixFile ..
  | .jobStatus _ | .listJobs _ | .listSpoolFiles _ | .readSpoolFile .. | .jobText _ => true
  | _ => false

/-- The calls that set a text, a mode, an owner or a tag, whatever was there. -/
def Call.isSetting : Call → Bool
  | .writeDataSet _ _ _ etag | .writeUnixFile _ _ _ etag => etag == ""
  | .changeMode .. | .changeOwner .. | .changeTag .. => true
  | _ => false

namespace Machine

theorem invoke_of_isQuery {call : Call} (h : call.isQuery = true) (time : String) (s : Machine) :
    (invoke time call s).2 = s := by
  cases call with
  | writeDataSet | createMember | createDataSet | deleteDataSet | writeUnixFile | createFile
  | createDirectory | deletePath | changeMode | changeOwner | changeTag | submit | submitDataSet
  | submitFile | deleteJob => cases h
  | _ => rfl

theorem invoke_invoke {call : Call} (h : call.isSetting = true) (time later : String)
    (s : Machine) : invoke later call (invoke time call s).2 = invoke time call s := by
  cases call with
  | writeDataSet dsn data encoding etag =>
    obtain rfl : etag = "" := by simpa [Call.isSetting] using h
    simp only [invoke, onCatalog, Catalog.write_write]
  | writeUnixFile path data encoding etag =>
    obtain rfl : etag = "" := by simpa [Call.isSetting] using h
    simp only [invoke, onFiles, FileTree.write_write]
  | changeMode path mode recursive =>
    simp only [invoke, onFiles, FileTree.changeMode_changeMode]
  | changeOwner path owner recursive =>
    simp only [invoke, onFiles, FileTree.changeOwner_changeOwner]
  | changeTag path tag recursive =>
    simp only [invoke, onFiles, FileTree.changeTag_changeTag]
  | _ => cases h

end Machine

end Host

open Host (Machine Call)

/-! ## Requests -/

namespace Request

variable {r : Request} {call : Call}

theorem isQuery_of_planList (h : r.planList = .ok call) : call.isQuery = true := by
  unfold planList at h
  split at h
  · cases h
    rfl
  · split at h
    · cases h
    · obtain ⟨dsn, _, ⟨⟩⟩ := eq_ok_of_bind h
      rfl
  · split at h
    · cases h
    · obtain ⟨dsn, _, ⟨⟩⟩ := eq_ok_of_bind h
      rfl
  · cases h
    rfl
  · cases h
    rfl
  · cases h
    rfl
  · cases h

theorem isQuery_of_planRead (h : r.planRead = .ok call) : call.isQuery = true := by
  unfold planRead at h
  simp only at h
  split at h
  · cases h
    rfl
  · cases h
    rfl
  · cases h
    rfl
  · cases h
    rfl
  · obtain ⟨dsn, _, ⟨⟩⟩ := eq_ok_of_bind h
    rfl

theorem isSetting_of_planWrite (htag : r.options.etag = none) (h : r.planWrite = .ok call) :
    call.isSetting = true := by
  unfold planWrite at h
  simp only [htag, Option.getD_none] at h
  split at h
  · obtain ⟨data, _, ⟨⟩⟩ := eq_ok_of_bind h
    rfl
  · obtain ⟨dsn, _, h⟩ := eq_ok_of_bind h
    obtain ⟨data, _, ⟨⟩⟩ := eq_ok_of_bind h
    rfl

theorem isSetting_of_planChange (h : r.planChange = .ok call) : call.isSetting = true := by
  unfold planChange at h
  split at h
  · cases h
    rfl
  · cases h
    rfl
  · cases h
    rfl
  · cases h

/-- The request only asks. -/
def Asks (r : Request) : Prop := r.verb = .list ∨ r.verb = .read

/-- The request sets something, and expects no tag where it could. -/
def Sets (r : Request) : Prop :=
  r.verb = .write ∧ r.options.etag = none ∨ r.verb ∈ [.chmod, .chown, .chtag]

theorem Asks.isQuery (h : r.Asks) (hplan : r.plan = .ok call) : call.isQuery = true := by
  rcases h with hverb | hverb
  · rw [plan, hverb] at hplan
    exact isQuery_of_planList hplan
  · rw [plan, hverb] at hplan
    exact isQuery_of_planRead hplan

theorem Sets.isSetting (h : r.Sets) (hplan : r.plan = .ok call) : call.isSetting = true := by
  unfold plan at hplan
  rcases h with ⟨hverb, htag⟩ | hverb
  · rw [hverb] at hplan
    exact isSetting_of_planWrite htag hplan
  · simp only [List.mem_cons, List.not_mem_nil, or_false] at hverb
    rcases hverb with hverb | hverb | hverb
    all_goals
      rw [hverb] at hplan
      exact isSetting_of_planChange hplan

/-- The time of day shows in what is read only. -/
theorem Sets.build_eq (h : r.Sets) (first second : Int) (output : Host.Output) :
    Reply.build first r output = Reply.build second r output := by
  have hverb : r.verb ≠ .read := by
    intro hread
    rcases h with ⟨hverb, _⟩ | hverb
    · rw [hread] at hverb
      cases hverb
    · simp [hread] at hverb
  have hof : Reply.of? first r output = Reply.of? second r output := by
    unfold Reply.of?
    cases hother : r.verb with
    | read => exact absurd hother hverb
    | _ => rfl
  rw [Reply.build, Reply.build, hof]

theorem Asks.reply_snd (h : r.Asks) (time : String) (second : Int) (s : Machine) :
    (r.reply (Machine.backend time) second s).2 = s := by
  cases hplan : r.plan with
  | error e =>
    rw [reply, execute, hplan]
  | ok call =>
    rw [Request.reply_snd _ second s hplan]
    exact Machine.invoke_of_isQuery (h.isQuery hplan) time s

theorem Sets.reply_reply (h : r.Sets) (time later : String) (first second : Int) (s : Machine) :
    r.reply (Machine.backend later) second (r.reply (Machine.backend time) first s).2 =
      r.reply (Machine.backend time) first s := by
  cases hplan : r.plan with
  | error e =>
    simp only [reply, execute, hplan]
  | ok call =>
    have hcall := Machine.invoke_invoke (h.isSetting hplan) time later s
    have hagain : (Machine.backend later).invoke call ((Machine.backend time).invoke call s).2 =
        (Machine.backend time).invoke call s := hcall
    rw [Request.reply_snd _ first s hplan]
    -- Both times the host gives the same answer, and of it the same reply is built.
    cases hanswer : ((Machine.backend time).invoke call s).1 with
    | error e =>
      have hlater := hagain.symm ▸ hanswer
      rw [reply_of_error _ first hplan hanswer, reply_of_error _ second hplan hlater, hagain]
    | ok output =>
      have hlater := hagain.symm ▸ hanswer
      rw [reply_of_ok _ first hplan hanswer, reply_of_ok _ second hplan hlater, hagain,
        h.build_eq first second]

end Request

/-! ## Endpoints -/

namespace Http

open Endpoint

variable {route : Route} {e : Endpoint} {raw : String} {q : Query} {body : Body} {r : Request}

theorem asks_of_get (hroute : route.handler? .get = some (.endpoint e))
    (h : accepted route e raw q body = .ok r) : r.Asks := by
  cases route with
  | info | health => cases hroute
  | dataSets =>
    cases hroute
    exact .inl (listDataSetsRequest_eq_ok h).1
  | dataSet tail =>
    cases hroute
    unfold accepted at h
    simp only at h
    split at h
    · exact .inl (listMembersRequest_eq_ok h).1
    · exact .inr (dataSetRequest_eq_ok h).1
  | files =>
    cases hroute
    exact .inl (listFilesRequest_eq_ok h).1
  | file tail =>
    cases hroute
    cases h
    exact .inr (Request.gapIf_verb ..)
  | jobs =>
    cases hroute
    cases h
    exact .inl (Request.gapIf_verb ..)
  | job tail =>
    cases hroute
    obtain ⟨target, _, hr⟩ := eq_ok_of_bind h
    cases target with
    | job ref =>
      cases hr
      exact .inr (Request.gapIf_verb ..)
    | spoolFiles ref =>
      cases hr
      exact .inl rfl
    | _ =>
      cases hr
      exact .inr rfl

theorem sets_of_putFile (htag : q.nonEmpty? "etag" = none) (h : putFile.accept raw q body = .ok r) :
    r.Sets := by
  rcases putFileRequest_cases h with hwrite | ⟨fields, hchange⟩
  · obtain ⟨hverb, _, hoptions, _⟩ := writeFileRequest_eq_ok hwrite
    exact .inl ⟨hverb, by rw [hoptions]; exact htag⟩
  · exact .inr (changeFileRequest_changes hchange)

theorem sets_of_put (hroute : route.handler? .put = some (.endpoint e)) (hjobs : route ≠ .jobs)
    (htag : q.nonEmpty? "etag" = none) (h : accepted route e raw q body = .ok r) : r.Sets := by
  cases route with
  | jobs => exact absurd rfl hjobs
  | dataSet tail =>
    cases hroute
    obtain ⟨hverb, _, hoptions, _⟩ := writeDataSetRequest_eq_ok h
    exact .inl ⟨hverb, by rw [hoptions]; exact htag⟩
  | files =>
    cases hroute
    obtain ⟨path, _, h⟩ := eq_ok_of_bind h
    exact sets_of_putFile htag h
  | file tail =>
    cases hroute
    exact sets_of_putFile htag h
  | _ => cases hroute

theorem run_get (hroute : route.handler? .get = some (.endpoint e)) (raw : String) (q : Query)
    (body : Body) (time : String) (second : Int) (s : Machine) :
    (run (Machine.backend time) second (accepted route e raw q body) s).2 = s := by
  cases haccepted : accepted route e raw q body with
  | error fault => simp only [run]
  | ok r => exact (asks_of_get hroute haccepted).reply_snd time second s

theorem run_put (hroute : route.handler? .put = some (.endpoint e)) (hjobs : route ≠ .jobs)
    (raw : String) (htag : q.nonEmpty? "etag" = none) (body : Body) (time later : String)
    (first second : Int) (s : Machine) :
    run (Machine.backend later) second (accepted route e raw q body)
        (run (Machine.backend time) first (accepted route e raw q body) s).2 =
      run (Machine.backend time) first (accepted route e raw q body) s := by
  cases haccepted : accepted route e raw q body with
  | error fault => simp only [run]
  | ok r => exact (sets_of_put hroute hjobs htag haccepted).reply_reply time later first second s

/-! ## The service -/

theorem handler?_head (route : Route) : route.handler? .head = route.handler? .get := by
  cases route <;> rfl

theorem serve_get (hroute : route.handler? .get = some (.endpoint e)) (config : Config)
    (time : String) (now : Instant) (query : String) (body : Body) (s : Machine) :
    (serve config (Machine.backend time) now route e query body s).2 = s := by
  unfold serve
  simp only
  split
  · rfl
  · exact run_get hroute _ _ _ time now.second s

theorem serve_put (hroute : route.handler? .put = some (.endpoint e)) (hjobs : route ≠ .jobs)
    (config : Config) (time later : String) (now soon : Instant) {query : String}
    (htag : (Uri.decodeQuery query).nonEmpty? "etag" = none) (body : Body) (s : Machine) :
    serve config (Machine.backend later) soon route e query body
        (serve config (Machine.backend time) now route e query body s).2 =
      serve config (Machine.backend time) now route e query body s := by
  unfold serve
  simp only
  -- What is taken of the request does not depend on the machine.
  split
  · rfl
  · rename_i raw body _
    have hrun := run_put hroute hjobs raw htag body time later now.second soon.second s
    simp only [hrun]

theorem respond_get (config : Config) (time : String) (now : Instant) {m : Message}
    (hmethod : m.method = "GET" ∨ m.method = "HEAD") (s : Machine) :
    (respond config (Machine.backend time) now m s).2 = s := by
  have hsame (route : Route) :
      route.handler? (Method.ofText m.method) = route.handler? .get := by
    rcases hmethod with hget | hhead
    · rw [hget]
      rfl
    · rw [hhead]
      exact handler?_head route
  unfold respond
  simp only [hsame]
  split
  all_goals
    split
    · rfl
    · split
      · rfl
      · rfl
      · rfl
      · rename_i e hroute
        exact serve_get hroute config time now _ _ s

theorem respond_put (config : Config) (time later : String) (now soon : Instant) {m : Message}
    (hmethod : m.method = "PUT") (hroute : Route.ofPath? (Uri.ofText m.uri).path = some route)
    (hjobs : route ≠ .jobs) (htag : (Uri.decodeQuery (Uri.ofText m.uri).query).nonEmpty? "etag" = none)
    (s : Machine) :
    respond config (Machine.backend later) soon m
        (respond config (Machine.backend time) now m s).2 =
      respond config (Machine.backend time) now m s := by
  have hput : Method.ofText m.method = .put := by
    rw [hmethod]
    rfl
  have hother : (Method.put == .head) = false := rfl
  unfold respond
  simp only [hput, hroute, hother, Bool.false_eq_true, if_false]
  rcases hhandler : route.handler? .put with _ | _ | _ | e
  · rfl
  · cases route <;> cases hhandler
  · cases route <;> cases hhandler
  · exact serve_put hhandler hjobs config time later now soon htag m.body s

/-- No GET changes the machine. A PUT on a data set or a file that expects no
tag changes it once: sent again it leaves the machine as it is, and has the
response that it had. Jobs are all that a PUT makes anew each time. -/
theorem get_is_safe_and_put_idempotent (config : Config) (s : Machine) :
    (∀ m time now, m.method = "GET" ∨ m.method = "HEAD" →
      (respond config (Machine.backend time) now m s).2 = s) ∧
    (∀ m route time later now soon, m.method = "PUT" →
      Route.ofPath? (Uri.ofText m.uri).path = some route → route ≠ .jobs →
      (Uri.decodeQuery (Uri.ofText m.uri).query).nonEmpty? "etag" = none →
      respond config (Machine.backend later) soon m
          (respond config (Machine.backend time) now m s).2 =
        respond config (Machine.backend time) now m s) ∧
    (∀ route e raw q body time second, Route.handler? route .get = some (.endpoint e) →
      (run (Machine.backend time) second (accepted route e raw q body) s).2 = s) ∧
    ∀ route e raw q body time later first second,
      Route.handler? route .put = some (.endpoint e) → route ≠ .jobs →
      q.nonEmpty? "etag" = none →
      run (Machine.backend later) second (accepted route e raw q body)
          (run (Machine.backend time) first (accepted route e raw q body) s).2 =
        run (Machine.backend time) first (accepted route e raw q body) s := by
  refine ⟨?_, ?_, ?_, ?_⟩
  · intro m time now hmethod
    exact respond_get config time now hmethod s
  · intro m route time later now soon hmethod hroute hjobs htag
    exact respond_put config time later now soon hmethod hroute hjobs htag s
  · intro route e raw q body time second hroute
    exact run_get hroute raw q body time second s
  · intro route e raw q body time later first second hroute hjobs htag
    exact run_put hroute hjobs raw htag body time later first second s

/-- A put that creates a file when it comes first, and replaces the content
when it comes again. -/
def newFileMessage : Message := ⟨"PUT", "/zosmf/restfiles/fs/tmp/x", Utf8.encodeString "hi"⟩

theorem put_of_new_file_is_repeated :
    (respond {} (Machine.backend "") ⟨0, ""⟩ newFileMessage (.initial "U")).1.status = 200 ∧
    respond {} (Machine.backend "") ⟨1, ""⟩ newFileMessage
        (respond {} (Machine.backend "") ⟨0, ""⟩ newFileMessage (.initial "U")).2 =
      respond {} (Machine.backend "") ⟨0, ""⟩ newFileMessage (.initial "U") := by
  obtain ⟨_, hput, _, _⟩ := get_is_safe_and_put_idempotent {} (.initial "U")
  have hroute : Route.ofPath? (Uri.ofText newFileMessage.uri).path = some (.file "tmp/x") := by
    decide
  have htag : (Uri.decodeQuery (Uri.ofText newFileMessage.uri).query).nonEmpty? "etag" = none := by
    decide
  exact ⟨rfl, hput newFileMessage (.file "tmp/x") "" "" ⟨0, ""⟩ ⟨1, ""⟩ rfl hroute nofun htag⟩

end Http

end MvsGateway
