import BoltClient.Proofs.Connection.Address
import BoltClient.Proofs.Connection.Restoring

namespace BoltClient

namespace Connection

open Work Session

/-- The exchange of a request that logs in. -/
def loginExchange (r : Request) : Exchange :=
  .ofRequest r.kind (match r with
    | .logon _ => .logon
    | _ => .init) {}

/-- A summary that does not refuse a request. -/
def Passes (summary : Response) : Prop := summary = .ignored ∨ ∃ metadata, summary = .success metadata

/-- A login is under way, and nothing has been refused. -/
structure Greets (c₀ : Connection) (begun : List Exchange) (told : List Response) (s : Session) : Prop where
  tracks : Tracks c₀ begun told s
  works : Works s.connection
  accepted : ∀ summary ∈ Response.summaries told, Passes summary
  purposes : ∀ x ∈ s.connection.pending, x.purpose = .init ∨ x.purpose = .logon

/-- A login has gone well. -/
structure LoggedIn (c₀ : Connection) (requests : List Request) (told : List Response) (t : Session) :
    Prop where
  hears : Hears c₀ told t
  works : Works t.connection
  pending : t.connection.pending = []
  /-- There are as many summaries as requests. -/
  count : (Response.summaries told).length = requests.length
  /-- Each request has got a summary, its own, that does not refuse it. -/
  each : ∀ i r, requests[i]? = some r → ∃ summary, (Response.summaries told)[i]? = some summary ∧
    Passes summary ∧ t.connection.exchange? (c₀.answered.size + i)
      = some ((loginExchange r).after (Response.recordsOf i told) (some summary))

variable {c₀ c d : Connection} {begun : List Exchange} {told : List Response} {s : Session} {x : Exchange}
  {rest : List Exchange}

/-- A request to log in that fails ends the connection, with an error. -/
theorem receive_of_login (hpending : c.pending = x :: rest) (hx : x.purpose = .init ∨ x.purpose = .logon)
    (r : Response) : match (c.receive r).2.1 with
    | none => ∀ summary ∈ r.summary?, Passes summary
    | some trouble => trouble.remedy = .kill ∧ trouble.error ≠ none := by
  have hreset : x.purpose ≠ .reset := by rcases hx with hx | hx <;> rw [hx] <;> exact nofun
  split
  · next hnone =>
    cases r with
    | record values => exact nofun
    | success metadata =>
      rintro _ ⟨⟩
      exact .inr ⟨metadata, rfl⟩
    | ignored =>
      rintro _ ⟨⟩
      exact .inl rfl
    | failure metadata =>
      unfold receive at hnone
      rw [hpending] at hnone
      cases hnone
  · next trouble hsome =>
    obtain ⟨_, _, hother⟩ := trouble_receive hpending hsome
    obtain ⟨hremedy, f, hf⟩ := hother hreset
    refine ⟨?_, by rw [hf]; exact nofun⟩
    rw [hremedy]
    rcases hx with hx | hx <;> rw [hx] <;> rfl

theorem fetchMessage_greets (h : Greets c₀ begun told s) : fetchMessage.run.Safe anyNetwork s
    (OrCloses fun _ t => ∃ told, Greets c₀ begun told t) := by
  unfold fetchMessage
  have hfetch := @fetchOne_takes s c₀ told begun 0 h.works (by simpa using h.tracks)
  refine Safe.orFail (hfetch.mono fun r t ht => ?_)
  match r with
  | .error e => exact ht
  | .ok (counts, trouble) =>
    obtain ⟨_, hnone, rfl⟩ | ⟨a, d, hsome, htakes, hreceived⟩ := ht
    · obtain rfl : trouble = none := hnone
      exact safe_ok ⟨told, h⟩
    obtain ⟨x, rest, hpending⟩ := List.exists_cons_of_ne_nil hsome
    have hhere : d.pending = x :: rest := htakes.books.pending.trans hpending
    have hx := h.purposes x (by rw [hpending]; exact List.mem_cons_self)
    have htold := htakes.tracks h.tracks hpending
    have hready := htakes.works
    have hanswer := receive_of_login hhere hx a
    have hleft := pending_receive hhere a
    rw [hreceived] at htold hready hanswer hleft
    cases trouble with
    | none =>
      refine safe_ok ⟨told ++ [a], htold, hready, fun summary hsummary => ?_, fun y hy => ?_⟩
      · rw [Response.summaries_append, List.mem_append, Option.mem_toList] at hsummary
        exact hsummary.elim (h.accepted summary) (hanswer summary)
      · have hrest (z : Exchange) (hz : z ∈ rest) : z.purpose = .init ∨ z.purpose = .logon :=
          h.purposes z (by rw [hpending]; exact List.mem_cons_of_mem x hz)
        obtain hnow | ⟨z, hz, hnow⟩ := hleft
        · exact hrest y (by rwa [hnow] at hy)
        · rw [hnow, List.mem_cons] at hy
          rcases hy with rfl | hy
          · rwa [hz]
          · exact hrest y hy
    | some trouble =>
      obtain ⟨hkill, herror⟩ := hanswer
      obtain ⟨purpose, remedy, error⟩ := trouble
      obtain rfl : remedy = .kill := hkill
      obtain ⟨e, rfl⟩ := Option.ne_none_iff_exists'.mp herror
      exact Safe.orFail (Safe.orFail (safe_editAmid fun _ => safe_throw rfl))

theorem fetchAll_greets (h : Greets c₀ begun told s) : fetchAll.run.Safe anyNetwork s
    (OrCloses fun _ t => ∃ told, Greets c₀ begun told t ∧ t.connection.pending = []) := by
  unfold fetchAll
  refine safe_iterateOrFail (fun _ t => ∃ told, Greets c₀ begun told t) ⟨told, h⟩ fun _ t ht => ?_
  obtain ⟨told, ht⟩ := ht
  refine Safe.orFail (safe_editAmid fun _ => ?_)
  dsimp only
  split
  · next hquiet => exact safe_ok ⟨told, ht, by simpa [isQuiet, ht.works.closed] using hquiet⟩
  · refine Safe.orFail ((fetchMessage_greets ht).mono fun r u hu => ?_)
    cases r with
    | error e => exact hu
    | ok => exact safe_ok hu

theorem works_queue (h : Works c) (r : Request) (purpose : Purpose) (watch : Watch) :
    Works (c.queue r purpose watch).2 := by
  unfold queue put
  cases PackStream.encode r.toStruct.value with
  | error e => exact h
  | ok payload => exact ⟨h.settled, h.defunct, h.closed⟩

theorem queue_begins (r : Request) (purpose : Purpose) (htracks : Tracks c₀ begun told s)
    (hworks : Works s.connection) :
    (attempt fun _ c => c.queue r purpose {}).run.Safe anyNetwork s fun queued t => ∀ n, queued = .ok n →
      Tracks c₀ (begun ++ [.ofRequest r.kind purpose {}]) told t ∧ Works t.connection ∧
      t.connection.pending = s.connection.pending ++ [.ofRequest r.kind purpose {}] := by
  refine safe_attempt fun _ n hn => ?_
  rcases queue_cases s.connection r purpose {} with ⟨⟨e, he⟩, _⟩ | ⟨_, hbegins⟩
  · rw [he] at hn
    cases hn
  · exact ⟨htracks.begin hbegins, works_queue hworks r purpose {}, hbegins.pending⟩

/-- The requests are queued in their order, unless one of them cannot be. -/
theorem queueHello_begins (requests : List Request) (htracks : Tracks c₀ begun told s)
    (hworks : Works s.connection) : (queueHello requests).run.Safe anyNetwork s fun r t => r = .ok () →
      Tracks c₀ (begun ++ requests.map loginExchange) told t ∧ Works t.connection ∧
      t.connection.pending = s.connection.pending ++ requests.map loginExchange := by
  unfold queueHello
  induction requests generalizing begun s with
  | nil =>
    refine safe_ok fun _ => ?_
    simpa using ⟨htracks, hworks⟩
  | cons r requests ih =>
    refine Safe.orFail (Safe.orFail ((queue_begins r _ htracks hworks).mono fun queued t ht => ?_))
    cases queued with
    | error e => exact fun h => nomatch h
    | ok n =>
      obtain ⟨htold, hready, hpending⟩ := ht n rfl
      refine safe_ok ((ih htold hready).mono fun r u hu hr => ?_)
      obtain ⟨htold, hready, hall⟩ := hu hr
      rw [hpending] at hall
      rw [List.append_assoc] at htold hall
      exact ⟨htold, hready, hall⟩

/-- Where every request has a summary, the login has gone well. -/
theorem Greets.loggedIn {requests : List Request} (h : Greets c₀ (requests.map loginExchange) told s)
    (hfresh : c₀.pending = []) (hpending : s.connection.pending = []) : LoggedIn c₀ requests told s := by
  have hcount : (Response.summaries told).length = requests.length := by
    have hcount := h.tracks.correlated.pending
    rw [hpending, hfresh, List.length_map] at hcount
    simpa using hcount
  refine ⟨h.tracks.hears, h.works, hpending, hcount, fun i r hr => ?_⟩
  have hi : i < (Response.summaries told).length := by
    rw [hcount]
    exact (List.getElem?_eq_some_iff.mp hr).1
  have hsummary := List.getElem?_eq_getElem hi
  refine ⟨_, hsummary, h.accepted _ (List.getElem_mem hi), h.tracks.correlated.concludes ?_ hsummary⟩
  rw [hfresh, List.nil_append, List.getElem?_map, hr, Option.map_some]

/-- The requests that log in are queued, and when they have been sent the login is under way. -/
theorem queueHello_greets (requests : List Request) (hworks : Works c) (hpending : c.pending = []) :
    (queueHello requests).run.Safe anyNetwork ⟨c, []⟩ fun r t => r = .ok () →
      sendAll.run.Safe anyNetwork t fun r u => r = .ok () →
        Greets c (requests.map loginExchange) [] u ∧ u.connection.outbox.size = 0 := by
  refine (queueHello_begins requests (.start c) hworks).mono fun r t ht hr => ?_
  obtain ⟨htracks, hready, hqueued⟩ := ht hr
  rw [hpending, List.nil_append] at hqueued
  have hwaiting : Waiting c (requests.map loginExchange) t := ⟨0, [], by simpa using htracks⟩
  have hsend := (unguarded (safe_sendAll hwaiting)).both (sendAll_moves hready) fun hb => hb
  refine hsend.mono fun r u hu hr => ?_
  obtain ⟨⟨hkeeps, hheard, _⟩, hsent⟩ := hu
  subst hr
  have htold := htracks.keeps hkeeps
  rw [← hheard] at htold
  refine ⟨⟨htold, hsent.1.works, nofun, fun x hx => ?_⟩, hsent.2⟩
  rw [hkeeps.pending, hqueued, List.mem_map] at hx
  obtain ⟨r, _, rfl⟩ := hx
  cases r <;> first | exact .inl rfl | exact .inr rfl

/-- Whoever logs in without an error has had every request answered, and no answer was a refusal. -/
theorem hello_greets (config : ConnectionConfig) (hworks : Works c) (hpending : c.pending = []) :
    (hello config).run.Safe anyNetwork ⟨c, []⟩ fun r t => r = .ok () → ∃ requests told,
      Protocol.hello c.version config = .ok requests ∧ LoggedIn c requests told t := by
  unfold hello
  refine Safe.orFail (safe_editAmid fun _ => ?_)
  dsimp only
  cases hrequests : Protocol.hello c.version config with
  | error e => exact fun h => nomatch h
  | ok requests =>
    refine Safe.orFail (safe_ok (Safe.orFail ?_))
    refine (queueHello_greets requests hworks hpending).mono fun r t ht => ?_
    cases r with
    | error e => exact fun h => nomatch h
    | ok =>
      refine Safe.orFail ((ht rfl).mono fun r u hu => ?_)
      cases r with
      | error e => exact fun h => nomatch h
      | ok =>
        refine Safe.orFail ((fetchAll_greets (hu rfl).1).mono fun r v hv => ?_)
        cases r with
        | error e => exact fun h => nomatch h
        | ok =>
          obtain ⟨told, hgreets, hquiet⟩ := hv
          exact safe_ok fun _ => ⟨requests, told, rfl, hgreets.loggedIn hpending hquiet⟩

end Connection

namespace Opening

open Work Connection

def listening : Surroundings Transfer (List UInt8) where
  Answers heard q b heard' := heard' = heard ++ q.heard b
  Allows _ _ := True

variable {α : Type} {s : Session}

/-- Work on a connection goes the same way for somebody who carries the connection. -/
theorem safe_carried {w : Connection.Task α} {post : α → Session → Prop} (before : List UInt8)
    (h : w.Safe Session.anyNetwork s post) :
    (carry s.connection w).Safe listening (before ++ s.heard) fun r heard =>
      ∃ after, heard = before ++ after ∧ post r.1 ⟨r.2, after⟩ := by
  induction w generalizing s with
  | done a => exact ⟨s.heard, rfl, h⟩
  | ask q next ih =>
    cases q with
    | edit f =>
      refine ⟨trivial, fun now heard hheard => ?_⟩
      obtain rfl : heard = before ++ s.heard := hheard.trans (List.append_nil _)
      exact ih _ (h.2 _ ⟨(f now s.connection).2, s.heard⟩ ⟨now, rfl, rfl⟩)
    | transfer q =>
      refine ⟨trivial, fun b heard hheard => ?_⟩
      rw [hheard, List.append_assoc]
      exact ih b (h.2 b ⟨s.connection, s.heard ++ q.heard b⟩ rfl)
  | loop body x next ihbody ihnext =>
    obtain ⟨inv, hx, hbody⟩ := h
    refine ⟨fun y heard => ∃ after, heard = before ++ after ∧ inv y.1 ⟨y.2, after⟩,
      ⟨s.heard, rfl, hx⟩, ?_⟩
    rintro ⟨y, d⟩ _ ⟨after, rfl, hy⟩
    refine Safe.bind ((ihbody y (hbody y ⟨d, after⟩ hy)).mono ?_)
    rintro ⟨z | b, e⟩ _ ⟨later, rfl, hr⟩
    · exact ⟨later, rfl, hr⟩
    · exact ihnext b hr

theorem carry_bind {β : Type} (c : Connection) (w : Connection.Task α) (f : α → Connection.Task β) :
    carry c (w.bind f) = (carry c w).bind fun r => carry r.2 (f r.1) := by
  induction w generalizing c with
  | done a => rfl
  | ask q next ih =>
    cases q with
    | edit g => exact congrArg _ (funext fun now => ih _ _ _)
    | transfer q => exact congrArg _ (funext fun b => ih b _ _)
  | loop body x next _ ih =>
    simp only [Work.bind, carry, ih]

theorem carry_round {β σ : Type} (c : Connection) (body : σ → Connection.Task (σ ⊕ β)) (x : σ)
    (next : β → Connection.Task α) : carry c (round body x next) = round (fun (x, c) =>
      (carry c (body x)).bind fun
        | (.inl x, c) => .done (.inl (x, c))
        | (.inr b, c) => .done (.inr (b, c))) (x, c) fun (b, c) => carry c (next b) := by
  unfold Work.round
  rw [carry_bind, Work.bind_assoc]
  congr 1
  funext r
  obtain ⟨_ | _, d⟩ := r <;> rfl

/-- A run of work on a connection is one for somebody who carries the connection, too. -/
theorem leads_carried {w w' : Connection.Task α} {t : Session} (before : List UInt8)
    (h : Leads Session.anyNetwork (w, s) (w', t)) : Leads listening (carry s.connection w, before ++ s.heard)
      (carry t.connection w', before ++ t.heard) := by
  let carried (x : Connection.Task α × Session) : Work Transfer (α × Connection) × List UInt8 :=
    (carry x.2.connection x.1, before ++ x.2.heard)
  refine (h.lift carried fun x y hstep => ?_ : Function.onFun (Leads listening) carried _ _)
  cases hstep with
  | @answer _ q next b s t hb =>
    cases q with
    | edit f =>
      obtain ⟨now, rfl, rfl⟩ := hb
      exact .answer (b := now) (List.append_nil _).symm
    | transfer q =>
      obtain rfl : t = ⟨s.connection, s.heard ++ q.heard b⟩ := hb
      exact .answer (b := b) (List.append_assoc _ _ _).symm
  | @round _ _ body x next s =>
    have hround := carry_round s.connection body x next
    simp only [carried, Function.onFun]
    rw [hround]
    exact .round

theorem safe_listening {heard : List UInt8} (w : Work Transfer α) :
    w.Safe listening heard fun _ _ => True := safe_of_allows (fun _ _ => trivial) w

/-- The connection that a login starts from, once a version is agreed on. -/
def Setting.agreed (s : Setting) (endpoint : Option Endpoint) (config : ConnectionConfig)
    (version : Version) (now : Instant) : Connection :=
  { ofLink s.link s.address endpoint version config.lifetime now with deadline := s.deadline }

theorem establish_logs_in (s : Setting) (endpoint : Option Endpoint) (config : ConnectionConfig) :
    (s.establish endpoint config).run.Safe listening [] fun r heard => ∀ c, r = .ok c →
      ∃ version now before after requests told, heard = before ++ after ∧
        Protocol.hello version config = .ok requests ∧
        LoggedIn (s.agreed endpoint config version now) requests told ⟨c, after⟩ := by
  unfold Setting.establish
  refine Safe.orFail ((safe_listening _).mono fun version heard _ => ?_)
  cases version with
  | error e => exact fun c hc => nomatch hc
  | ok version =>
    refine Safe.orFail ((safe_listening _).mono fun now heard _ => ?_)
    cases now with
    | error e => exact fun c hc => nomatch hc
    | ok now =>
      have hlogin := safe_carried heard (hello_greets (c := s.agreed endpoint config version now) config
        ⟨rfl, rfl, rfl⟩ rfl)
      rw [List.append_nil] at hlogin
      refine Safe.orFail (Safe.map (hlogin.mono fun r all hr => ?_))
      obtain ⟨_ | _, d⟩ := r
      · exact fun c hc => nomatch hc
      · rintro c ⟨⟩
        obtain ⟨after, hall, hlogged⟩ := hr
        obtain ⟨requests, told, hrequests, hlogged⟩ := hlogged rfl
        refine ⟨version, now, heard, after, requests, told, hall, hrequests, ?_⟩
        obtain ⟨hhears, hworks, hpending, hcount, heach⟩ := hlogged
        exact ⟨hhears.congr rfl id, ⟨hworks.settled, hworks.defunct, hworks.closed⟩, hpending, hcount, heach⟩

/-- Whoever logs in without an error, and so whoever is given a connection that has just been opened, has had
every request answered with a summary of its own, and no summary was a failure; but a request that was
passed over counts as accepted. -/
theorem login_not_refused (config : ConnectionConfig) :
    (∀ c t, Works c → c.pending = [] →
      Leads Session.anyNetwork ((hello config).run, ⟨c, []⟩) (.done (.ok ()), t) →
      ∃ requests told, Protocol.hello c.version config = .ok requests ∧ LoggedIn c requests told t) ∧
    (∀ (s : Setting) endpoint c heard,
      Leads listening ((s.establish endpoint config).run, []) (.done (.ok c), heard) →
      ∃ version now before after requests told, heard = before ++ after ∧
        Protocol.hello version config = .ok requests ∧
        LoggedIn (s.agreed endpoint config version now) requests told ⟨c, after⟩) :=
  ⟨fun _ _ hworks hpending hends => (hello_greets config hworks hpending).leads hends rfl,
    fun s endpoint c _ hends => (establish_logs_in s endpoint config).leads hends c rfl⟩

def nameless : ConnectionConfig := { userAgent := "" }

/-- A connection on which a version without LOGON is agreed on. -/
def met : Connection := Setting.agreed ⟨⟨0⟩, default, .never⟩ none nameless .v5_0 .start

def introducing : Connection :=
  (met.queue (.hello ((Protocol.greeting .v5_0 nameless).withAuth nameless.auth.entries)) .init {}).2

def introduced : Connection := { met with pending := [.ofRequest .hello .init {}] }

set_option maxRecDepth 4000 in
theorem hello_passed_over : ∃ t,
    Leads Session.anyNetwork ((hello nameless).run, ⟨met, []⟩) (.done (.ok ()), t) ∧
    t.connection.state = .connected ∧ ∃ x, t.connection.exchange? 0 = some x ∧ x.success = none := by
  have hsend : Leads Session.anyNetwork (sendAll.run, ⟨introducing, []⟩) (.done (.ok ()), ⟨introduced, []⟩) :=
    leads_sendAll .start ⟨rfl, rfl, rfl⟩ rfl (Chunk.Writer.size_endMessage _)
  have hnext : Leads Session.anyNetwork (nextAnswer.run, ⟨introduced, []⟩)
      (.done (.ok .ignored), ⟨introduced, Wire.ignoredBytes⟩) :=
    leads_nextAnswer_reading rfl Wire.nextResponse_default Wire.nextResponse_ignored
  have htakes : TakesIn ⟨introduced, []⟩ ⟨(introduced.receive .ignored).2.2, Wire.ignoredBytes⟩ :=
    ⟨rfl, _, leads_fetchOne .start ⟨rfl, rfl, rfl⟩ rfl hnext rfl⟩
  obtain ⟨counts, hfetch⟩ := leads_fetchAll (.single htakes) rfl
  refine ⟨⟨(introduced.receive .ignored).2.2, Wire.ignoredBytes⟩, ?_, rfl,
    (Exchange.ofRequest .hello .init {}).ignore.1, rfl, rfl⟩
  refine .head (.answer (b := .v5_0) ⟨.start, rfl, rfl⟩) ?_
  refine .head (.answer (b := .ok 0) (t := ⟨introducing, []⟩) ⟨.start, rfl, rfl⟩) ?_
  exact .trans (Leads.bind hsend _) (Leads.bind hfetch _)

/-- The connection is given away although the server has not accepted the client. -/
theorem establish_passed_over : ∃ c heard,
    Leads listening ((Setting.establish ⟨⟨0⟩, default, .never⟩ none nameless).run, [])
      (.done (.ok c), heard) ∧
    c.state = .connected ∧ ∃ x, c.exchange? 0 = some x ∧ x.success = none := by
  obtain ⟨t, hrun, hstate, x, hx, hnone⟩ := hello_passed_over
  refine ⟨{ t.connection with deadline := .never }, [0, 0, 0, 5] ++ t.heard, ?_, hstate, x, hx, hnone⟩
  -- the version is agreed on
  refine .head (.answer (b := .done) rfl) ?_
  refine .head .round ?_
  refine .head (.answer (b := .bytes [0, 0, 0, 5]) rfl) ?_
  refine .head .round ?_
  refine .head (.answer (b := .start) rfl) ?_
  exact ((leads_carried [0, 0, 0, 5] hrun).bind _).bind _

theorem passed_over_not_refused :
    (∃ t requests told, Protocol.hello .v5_0 nameless = .ok requests ∧ LoggedIn met requests told t) ∧
    ∃ c heard version now before after requests told, heard = before ++ after ∧
      Protocol.hello version nameless = .ok requests ∧
      LoggedIn (Setting.agreed ⟨⟨0⟩, default, .never⟩ none nameless version now) requests told
        ⟨c, after⟩ := by
  obtain ⟨t, hhello, _⟩ := hello_passed_over
  obtain ⟨c, heard, hopened, _⟩ := establish_passed_over
  exact ⟨⟨t, (login_not_refused nameless).1 met t ⟨rfl, rfl, rfl⟩ rfl hhello⟩, c, heard,
    (login_not_refused nameless).2 ⟨⟨0⟩, default, .never⟩ none c heard hopened⟩

/-- Not every login that ends well was accepted. -/
theorem not_all_logins_succeed : ¬∀ (s : Setting) (endpoint : Option Endpoint) (config : ConnectionConfig)
    (c : Connection) (heard : List UInt8),
    Leads listening ((s.establish endpoint config).run, []) (.done (.ok c), heard) →
    ∀ n x, c.exchange? n = some x → x.success ≠ none := by
  intro h
  obtain ⟨c, heard, hopened, _, x, hx, hnone⟩ := establish_passed_over
  exact h _ none nameless c heard hopened 0 x hx hnone

end Opening

end BoltClient
