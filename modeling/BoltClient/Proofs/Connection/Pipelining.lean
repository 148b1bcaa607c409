import BoltClient.Proofs.Chunk.Joining
import BoltClient.Proofs.Connection.Bookkeeping
import BoltClient.Proofs.Connection.Chronicle

/-!
Requests that go out one behind the other. What has been written, followed by what waits to be written, is the
requests that could be queued, each encoded and put into chunks by itself. It does not show how often what waited
was sent in between, or which requests could not be encoded.
-/

namespace BoltClient

/-- A request that is queued, with its bytes and with how it is answered. -/
structure Accepted where
  request : Request
  purpose : Purpose
  watch : Watch
  payload : List UInt8
  encoded : PackStream.encode request.toStruct.value = .ok payload

namespace Accepted

/-- A request that can be encoded. -/
def of? (request : Request) (purpose : Purpose) (watch : Watch) : Option Accepted :=
  match h : PackStream.encode request.toStruct.value with
  | .ok payload => some ⟨request, purpose, watch, payload, h⟩
  | .error _ => none

theorem of?_of_ok {request : Request} {payload : List UInt8}
    (h : PackStream.encode request.toStruct.value = .ok payload) (purpose : Purpose) (watch : Watch) :
    of? request purpose watch = some ⟨request, purpose, watch, payload, h⟩ := by
  unfold of?
  split
  · next payload' h' =>
    obtain rfl : payload' = payload := Except.ok.inj (h'.symm.trans h)
    rfl
  · next e h' => exact nomatch h'.symm.trans h

theorem of?_of_error {request : Request} {e : PackStream.Error}
    (h : PackStream.encode request.toStruct.value = .error e) (purpose : Purpose) (watch : Watch) :
    of? request purpose watch = none := by
  unfold of?
  split
  · next payload h' => exact nomatch h'.symm.trans h
  · rfl

/-- A request can be queued exactly when every size in it can be written. -/
theorem isSome_of?_iff (request : Request) (purpose : Purpose) (watch : Watch) :
    (of? request purpose watch).isSome = true ↔ request.toStruct.value.Fits := by
  rw [← PackStream.exists_spell_iff, ← PackStream.encode_eq_spell]
  cases h : PackStream.encode request.toStruct.value with
  | ok payload => simp [of?_of_ok h]
  | error e => simp [of?_of_error h]

def chunks (a : Accepted) : List UInt8 := Chunk.ofPayload a.payload Chunk.defaultLimit

def exchange (a : Accepted) : Exchange := .ofRequest a.request.kind a.purpose a.watch

end Accepted

namespace Stage.Queueing

def request (version : Version) : Queueing → Except Error Request
  | run query parameters extra filter => Protocol.run version query parameters extra filter
  | begin extra filter => Protocol.begin version extra filter
  | pull n qid => .ok (.pull n qid)
  | discard n qid => .ok (.discard n qid)
  | commit => .ok .commit
  | rollback => .ok .rollback
  | other r _ => .ok r

def database (c : Connection) : Queueing → Option String
  | run _ _ extra _ | begin extra _ => extra.database
  | _ => c.lastDatabase

/-- A request that is possible is queued, and its database remembered. -/
theorem apply_eq (q : Queueing) (watch : Watch) (c : Connection) : q.apply watch c =
    match q.request c.version with
    | .ok r => { c with lastDatabase := q.database c }.queue r q.purpose watch
    | .error e => (.error e, c) := by
  have hfor (r : Except Error Request) (database : Option String) : c.queueFor r database watch = match r with
      | .ok r => { c with lastDatabase := database }.queue r .plain watch
      | .error e => (.error e, c) := by cases r <;> rfl
  cases q with
  | pull | discard | commit | rollback | other => rfl
  | run | begin => exact hfor _ _

/-- What is queued: a request that is possible and can be encoded. -/
def accepted? (version : Version) (watch : Watch) (q : Queueing) : Option Accepted :=
  match q.request version with
  | .ok r => Accepted.of? r q.purpose watch
  | .error _ => none

end Stage.Queueing

namespace Connection

open Work Chronicle

def Call.accepted? (version : Version) : Call → Option Accepted
  | queue q watch => q.accepted? version watch
  | _ => none

def steady : Surroundings Query Chronicle where
  Answers s q b t := s.Answers q b t ∧ t.losing = false
  Allows _ _ := True

def Call.posts : Call → Bool
  | queue .. | sendAll => true
  | fetchMessage | fetchAll | reset => false

/-- Requests have been queued and sent; every call has come to its end, and the network has lost nothing. -/
inductive Sends (s₀ : Chronicle) : List (Call × Returned) → Chronicle → Prop where
  | start : Sends s₀ [] s₀
  | call {past : List (Call × Returned)} {s t : Chronicle} {r : Returned} (h : Sends s₀ past s) (k : Call)
      (hk : k.posts = true) (hends : Leads steady (k.work, s) (.done r, t)) : Sends s₀ (past ++ [(k, r)]) t

/-- A connection that can write, and is not in the middle of a message. -/
structure Open (c : Connection) : Prop where
  works : Works c
  linked : c.transport ≠ none
  between : c.outbox.Between
  limit : c.outbox.limit = Chunk.defaultLimit

variable {c : Connection} {s s₀ t : Chronicle} {α : Type}

/-- A request that is accepted is put into chunks behind the others and waits for its answer; of another one
nothing is left. -/
theorem queue_of? (c : Connection) (r : Request) (purpose : Purpose) (watch : Watch) :
    match Accepted.of? r purpose watch with
    | some a => c.queue r purpose watch = (.ok (c.answered.size + c.pending.length),
        { c with outbox := (c.outbox.write a.payload).endMessage, pending := c.pending ++ [a.exchange] })
    | none => ∃ e, c.queue r purpose watch = (.error e, c) := by
  cases hencode : PackStream.encode r.toStruct.value with
  | ok payload =>
    rw [Accepted.of?_of_ok hencode]
    unfold queue put
    rw [hencode]
    rfl
  | error e =>
    rw [Accepted.of?_of_error hencode]
    unfold queue put
    rw [hencode]
    exact ⟨_, rfl⟩

end Connection

/-- What is queued is put into chunks behind the rest; what is not leaves at most the name of its database. -/
theorem Stage.Queueing.apply_accepted (q : Queueing) (watch : Watch) (c : Connection) :
    match q.accepted? c.version watch with
    | some a => q.apply watch c = (.ok (c.answered.size + c.pending.length),
        { c with
          lastDatabase := q.database c, outbox := (c.outbox.write a.payload).endMessage
          pending := c.pending ++ [a.exchange] })
    | none => ∃ e database, q.apply watch c = (.error e, { c with lastDatabase := database }) := by
  rw [apply_eq]
  unfold accepted?
  cases q.request c.version with
  | error e => exact ⟨e, c.lastDatabase, rfl⟩
  | ok r =>
    have hqueue := Connection.queue_of? { c with lastDatabase := q.database c } r q.purpose watch
    dsimp only
    generalize Accepted.of? r q.purpose watch = accepted at hqueue ⊢
    cases accepted with
    | some a => exact hqueue
    | none =>
      obtain ⟨e, he⟩ := hqueue
      exact ⟨e, _, he⟩

namespace Connection

open Work Chronicle

def queued (version : Version) (past : List (Call × Returned)) : List Accepted :=
  past.filterMap fun p => p.1.accepted? version

/-- What a call gives back: the number of its exchange where a request is queued, an error where it is not, and
nothing where all is sent. -/
def Call.Gives (version : Version) (k : Call) (r : Returned) : Prop :=
  match k, k.accepted? version with
  | .queue .., some _ => ∃ n, r = .ok (some n)
  | .queue .., none => ∃ e, r = .error e
  | _, _ => r = .ok none

/-- What has been written and what waits is the requests that were queued, one behind the other. -/
structure Ledger (s₀ : Chronicle) (past : List (Call × Returned)) (s : Chronicle) : Prop where
  ready : Open s.connection
  version : s.connection.version = s₀.connection.version
  bytes : s.written ++ s.connection.outbox.bytes = s₀.written ++ s₀.connection.outbox.bytes ++
    (queued s₀.connection.version past).flatMap Accepted.chunks
  pending : s.connection.pending = s₀.connection.pending ++
    (queued s₀.connection.version past).map Accepted.exchange
  answered : s.connection.answered = s₀.connection.answered
  given : ∀ p ∈ past, p.1.Gives s₀.connection.version p.2

structure Sent (s : Chronicle) (r : Except Error Unit) (t : Chronicle) : Prop where
  ok : r = .ok ()
  written : t.written = s.written ++ s.connection.outbox.bytes
  waiting : t.connection.outbox.bytes = []
  ready : Open t.connection
  version : t.connection.version = s.connection.version
  pending : t.connection.pending = s.connection.pending
  answered : t.connection.answered = s.connection.answered

section

variable {c : Connection} {s s₀ t : Chronicle} {α : Type} {past : List (Call × Returned)}

theorem ends_steadily {f : Instant → Connection → α × Connection} {post : α → Chronicle → Prop}
    (h : ∀ now, post (f now s.connection).1 (s.change (f now s.connection).2)) :
    (edit f : Task α).Ends steady post s := by
  refine .ask ⟨_, _, ⟨.start, rfl, rfl⟩, rfl⟩ ?_
  rintro b t ⟨⟨now, rfl, rfl⟩, _⟩
  exact .done (h now)

theorem ends_attemptSteadily {f : Instant → Connection → Except Error α × Connection}
    {post : Except Error α → Chronicle → Prop}
    (h : ∀ now, post (f now s.connection).1 (s.change (f now s.connection).2)) :
    (attempt f).run.Ends steady post s := ends_steadily h

theorem ends_write {link : Link} {bytes : List UInt8} {deadline : Deadline}
    {post : Except Error Output → Chronicle → Prop} (h : post (.ok .done) (s.note (.write link bytes deadline) .done)) :
    (transfer (.write link bytes deadline) : Attempt Output).run.Ends steady post s := by
  refine .ask ⟨.done, _, rfl, rfl⟩ ?_
  rintro b t ⟨rfl, hkept⟩
  cases b with
  | done => exact .done h
  | failed | late => cases hkept

theorem flush_sends (h : Open s.connection) : flush.run.Ends steady (Sent s) s := by
  obtain ⟨link, hlink⟩ := Option.ne_none_iff_exists'.mp h.linked
  unfold flush
  refine Ends.orFail (ends_attemptSteadily fun _ => ?_)
  rw [beginWrite_of_linked hlink]
  by_cases hnothing : s.connection.outbox.size = 0
  · rw [if_pos hnothing]
    have hnone : s.connection.outbox.bytes = [] :=
      List.eq_nil_of_length_eq_zero ((Chunk.Writer.length_bytes _).trans hnothing)
    refine .done ⟨rfl, ?_, hnone, h, rfl, rfl, rfl⟩
    rw [hnone, List.append_nil]
    rfl
  · rw [if_neg hnothing]
    refine Ends.orFail (ends_write (ends_attemptSteadily fun now => ?_))
    exact ⟨rfl, rfl, rfl, ⟨⟨rfl, h.works.defunct, h.works.closed⟩, h.linked, rfl, h.limit⟩, rfl, rfl, rfl⟩

theorem sendAll_sends (h : Open s.connection) : sendAll.run.Ends steady (Sent s) s := by
  unfold sendAll
  refine Ends.orFail (ends_attemptSteadily fun _ => ?_)
  rw [check_of_works h.works]
  exact (flush_sends (s := s.change s.connection) h).mono fun r t ht =>
    ⟨ht.ok, ht.written, ht.waiting, ht.ready, ht.version, ht.pending, ht.answered⟩

/-- A request that is queued waits behind the others. -/
theorem Open.queue (h : Open c) (a : Accepted) (database : Option String) :
    Open { c with
      lastDatabase := database, outbox := (c.outbox.write a.payload).endMessage
      pending := c.pending ++ [a.exchange] } where
  works := ⟨h.works.settled, h.works.defunct, h.works.closed⟩
  linked := h.linked
  between := Chunk.Writer.between_endMessage _
  limit := by
    rw [Chunk.Writer.limit_endMessage, Chunk.Writer.limit_write]
    exact h.limit

theorem queued_append (version : Version) (past : List (Call × Returned)) (k : Call) (r : Returned) :
    queued version (past ++ [(k, r)]) = queued version past ++ (k.accepted? version).toList := by
  unfold queued
  rw [List.filterMap_append]
  cases haccepted : k.accepted? version <;> simp [haccepted]

/-- One call adds what is queued by it. -/
theorem Ledger.extend (h : Ledger s₀ past s) {k : Call} {r : Returned} (hready : Open t.connection)
    (hversion : t.connection.version = s.connection.version)
    (hbytes : t.written ++ t.connection.outbox.bytes = s.written ++ s.connection.outbox.bytes ++
      (k.accepted? s.connection.version).toList.flatMap Accepted.chunks)
    (hpending : t.connection.pending = s.connection.pending ++
      (k.accepted? s.connection.version).toList.map Accepted.exchange)
    (hanswered : t.connection.answered = s.connection.answered) (hgives : k.Gives s.connection.version r) :
    Ledger s₀ (past ++ [(k, r)]) t where
  ready := hready
  version := hversion.trans h.version
  bytes := by
    rw [hbytes, h.bytes, queued_append, List.flatMap_append, ← h.version, List.append_assoc]
  pending := by
    rw [hpending, h.pending, queued_append, List.map_append, ← h.version, List.append_assoc]
  answered := hanswered.trans h.answered
  given p hp := by
    rcases List.mem_append.mp hp with hp | hp
    · exact h.given p hp
    · obtain rfl := List.mem_singleton.mp hp
      rw [← h.version]
      exact hgives

theorem Ledger.queue (h : Ledger s₀ past s) (q : Stage.Queueing) (watch : Watch) :
    (Call.queue q watch).work.Ends steady (fun r t => Ledger s₀ (past ++ [(.queue q watch, r)]) t) s := by
  refine Ends.bind (ends_steadily fun _ => .done ?_)
  have happly := q.apply_accepted watch s.connection
  have haccepted : (Call.queue q watch).accepted? s.connection.version = q.accepted? s.connection.version watch := rfl
  cases hq : q.accepted? s.connection.version watch with
  | some a =>
    rw [hq] at happly haccepted
    rw [happly]
    have hbytes := Chunk.Writer.Between.bytes_message h.ready.between a.payload
    rw [h.ready.limit] at hbytes
    refine h.extend (h.ready.queue a _) rfl ?_ ?_ rfl ?_
    · rw [haccepted]
      show s.written ++ (s.connection.outbox.write a.payload).endMessage.bytes = _
      rw [hbytes, ← List.append_assoc, Option.toList_some, List.flatMap_singleton]
      rfl
    · rw [haccepted]
      rfl
    · unfold Call.Gives
      rw [haccepted]
      exact ⟨_, rfl⟩
  | none =>
    rw [hq] at happly haccepted
    obtain ⟨e, database, he⟩ := happly
    rw [he]
    refine h.extend ⟨⟨h.ready.works.settled, h.ready.works.defunct, h.ready.works.closed⟩, h.ready.linked,
      h.ready.between, h.ready.limit⟩ rfl ?_ ?_ rfl ?_
    · rw [haccepted, Option.toList_none, List.flatMap_nil, List.append_nil]
      rfl
    · rw [haccepted, Option.toList_none, List.map_nil, List.append_nil]
      rfl
    · unfold Call.Gives
      rw [haccepted]
      exact ⟨_, rfl⟩

theorem Ledger.send (h : Ledger s₀ past s) :
    Call.sendAll.work.Ends steady (fun r t => Ledger s₀ (past ++ [(.sendAll, r)]) t) s := by
  refine Ends.bind ((sendAll_sends h.ready).mono fun r t ht => .done ?_)
  obtain ⟨rfl, hwritten, hwaiting, hready, hversion, hpending, hanswered⟩ := ht
  have hnone : Call.sendAll.accepted? s.connection.version = none := rfl
  refine h.extend hready hversion ?_ ?_ hanswered rfl
  · rw [hwritten, hwaiting, hnone, Option.toList_none, List.flatMap_nil]
  · rw [hpending, hnone, Option.toList_none, List.map_nil, List.append_nil]

theorem Ledger.call (h : Ledger s₀ past s) {k : Call} (hk : k.posts = true) :
    k.work.Ends steady (fun r t => Ledger s₀ (past ++ [(k, r)]) t) s := by
  cases k with
  | queue q watch => exact h.queue q watch
  | sendAll => exact h.send
  | fetchMessage | fetchAll | reset => cases hk

theorem Sends.ledger (h : Sends s₀ past s) (hready : Open s₀.connection) : Ledger s₀ past s := by
  induction h with
  | start =>
    refine ⟨hready, rfl, ?_, ?_, rfl, List.forall_mem_nil _⟩
    · exact (List.append_nil _).symm
    · exact (List.append_nil _).symm
  | call _ k hk hends ih =>
    have hdone := (ih.call hk).of_done hends
    exact hdone

/-- Nothing of a message is written without its end. -/
structure Rounded (c : Connection) : Prop where
  between : c.outbox.Between
  limit : c.outbox.limit = Chunk.defaultLimit

theorem Rounded.congr {d : Connection} (h : Rounded c) (houtbox : d.outbox = c.outbox) : Rounded d :=
  ⟨by rw [houtbox]; exact h.between, by rw [houtbox]; exact h.limit⟩

theorem Rounded.put {d : Connection} (h : Rounded c) {r : Request} (hput : c.put r = .ok d) : Rounded d := by
  unfold Connection.put at hput
  split at hput
  · cases hput
    refine ⟨Chunk.Writer.between_endMessage _, ?_⟩
    rw [Chunk.Writer.limit_endMessage, Chunk.Writer.limit_write]
    exact h.limit
  · cases hput

theorem lasting_rounded : Lasting Rounded where
  alters {c d} hc h := by
    cases h with
    | same | unlink | part | kill => exact ⟨hc.between, hc.limit⟩
    | check _ direction =>
      refine hc.congr ?_
      rw [check_settles]
      unfold settleFlight
      split <;> rfl
    | beginWrite =>
      unfold beginWrite
      split
      · exact hc
      · dsimp only
        split <;> exact ⟨Chunk.Writer.between_take _, hc.limit⟩
    | endWrite outcome now => cases outcome <;> exact ⟨hc.between, hc.limit⟩
    | beginRead now =>
      refine hc.congr ?_
      unfold beginRead
      split
      split
      · rfl
      · rfl
      · dsimp only
        split <;> rfl
    | endRead input => cases input <;> exact ⟨hc.between, hc.limit⟩
    | receive now _ r => exact hc.congr (outbox_receive { c with lastUsed := now } r)
    | beginClose =>
      unfold beginClose
      split
      · exact hc
      · dsimp only
        split
        · exact ⟨hc.between, hc.limit⟩
        · have hclosing : Rounded { c with closing := true } := ⟨hc.between, hc.limit⟩
          split
          · next hput => exact hclosing.put hput
          · exact hclosing
    | queue _ r purpose watch =>
      unfold Connection.queue
      split
      · exact hc
      · next hput =>
        obtain ⟨hbetween, hlimit⟩ := hc.put hput
        exact ⟨hbetween, hlimit⟩
  marks {c d} hc h := by
    cases h with
    | records n =>
      obtain ⟨_, _, houtbox, _⟩ := sameLine_modifyExchange c n fun x => { x with records := #[] }
      exact hc.congr houtbox
    | same | deadline | stale | database | heeded | chosen => exact ⟨hc.between, hc.limit⟩

/-- On a connection that is open, whatever has been done with it before: requests are queued and sent in any order,
and the network loses nothing. What has been written and what waits to be written is then what it was before, and
behind it, in the order of the calls, each request that was queued, encoded and cut into chunks by itself. Their
exchanges wait in the same order. A call that was to queue a request fails where the request is not possible or
cannot be encoded, and of such a one there is no byte and no exchange. Every further call comes to an end as well. -/
theorem written_as_queued (link : Link) (address : Address) (endpoint : Option Endpoint) (version : Version)
    (lifetime : Option Duration) (now : Instant) (s₀ : Chronicle)
    (hreached : Story.Reaches (.opened link address endpoint version lifetime now) ⟨none, s₀⟩)
    (hworks : Works s₀.connection) (hlinked : s₀.connection.transport ≠ none) (past : List (Call × Returned))
    (s : Chronicle) (h : Sends s₀ past s) :
    s.written ++ s.connection.outbox.bytes = s₀.written ++ s₀.connection.outbox.bytes ++
      ((queued s₀.connection.version past).map fun a => Chunk.ofPayload a.payload 16384).flatten ∧
    s.connection.pending = s₀.connection.pending ++ (queued s₀.connection.version past).map Accepted.exchange ∧
    s.connection.answered = s₀.connection.answered ∧
    (∀ p ∈ past, p.1.Gives s₀.connection.version p.2) ∧
    ∀ k : Call, k.posts = true → ∃ r t, Sends s₀ (past ++ [(k, r)]) t := by
  have hstart : Rounded (ofLink link address endpoint version lifetime now) := ⟨rfl, rfl⟩
  have hrounded : Rounded s₀.connection :=
    ((Story.preserves_opened Rounded link address endpoint version lifetime now).reaches lasting_rounded
      hreached).2 hstart
  have hledger := h.ledger ⟨hworks, hlinked, hrounded.between, hrounded.limit⟩
  refine ⟨hledger.bytes, hledger.pending, hledger.answered, hledger.given, fun k hk => ?_⟩
  obtain ⟨r, t, hends, _⟩ := (hledger.call hk).exists_done
  exact ⟨r, t, h.call k hk hends⟩

/-- A query whose parameter is a structure with too many fields. -/
theorem large_refused {fields : List Value} (h : Value.maxFields < fields.length) (watch : Watch) :
    Stage.Queueing.accepted? .v5_2 watch (.run "RETURN $x" [("x", .struct 0 fields)] {} {}) = none := by
  refine Option.not_isSome_iff_eq_none.mp fun haccepted => ?_
  have hfits := (Accepted.isSome_of?_iff _ _ _).mp haccepted
  have hparameter : fields.length ≤ Value.maxFields := hfits.2.2.1.2.1.1
  exact Nat.not_le_of_lt h hparameter

/-- Of what is queued here the second cannot be encoded, and the fourth waits when the first has been sent. -/
theorem commit_and_rollback_written :
    let s₀ : Chronicle := { connection := ofLink ⟨0⟩ default none .v5_2 none .start }
    let large : Stage.Queueing := .run "RETURN $x" [("x", .struct 0 (List.replicate 0x10000 .null))] {} {}
    ∃ past s, past.map Prod.fst = [.queue .commit {}, .queue large {}, .sendAll, .queue .rollback {}] ∧
      Sends s₀ past s ∧
      s.written ++ s.connection.outbox.bytes = [0, 2, 0xB0, 0x12, 0, 0, 0, 2, 0xB0, 0x13, 0, 0] ∧
      s.connection.pending.map (·.request) = [.commit, .rollback] := by
  intro s₀ large
  have hgo := written_as_queued ⟨0⟩ default none .v5_2 none .start s₀ .refl ⟨rfl, rfl, rfl⟩ nofun
  obtain ⟨r₁, s₁, h₁⟩ := (hgo _ _ .start).2.2.2.2 (.queue .commit {}) rfl
  obtain ⟨r₂, s₂, h₂⟩ := (hgo _ _ h₁).2.2.2.2 (.queue large {}) rfl
  obtain ⟨r₃, s₃, h₃⟩ := (hgo _ _ h₂).2.2.2.2 .sendAll rfl
  obtain ⟨r₄, s₄, h₄⟩ := (hgo _ _ h₃).2.2.2.2 (.queue .rollback {}) rfl
  obtain ⟨hbytes, hpending, _⟩ := hgo _ _ h₄
  have hlarge : large.accepted? .v5_2 {} = none := by
    refine large_refused ?_ {}
    rw [List.length_replicate]
    decide
  have hqueued : queued s₀.connection.version ([] ++ [(Call.queue .commit {}, r₁)] ++ [(.queue large {}, r₂)] ++
      [(.sendAll, r₃)] ++ [(.queue .rollback {}, r₄)]) =
      [⟨.commit, .commit, {}, [0xB0, 0x12], rfl⟩, ⟨.rollback, .plain, {}, [0xB0, 0x13], rfl⟩] := by
    have hnone : (Call.queue large {}).accepted? s₀.connection.version = none := hlarge
    rw [queued_append, queued_append, queued_append, queued_append, hnone]
    rfl
  refine ⟨_, s₄, rfl, h₄, hbytes.trans ?_, ?_⟩
  · rw [hqueued]
    rfl
  · rw [hpending, hqueued]
    rfl

end

end Connection
end BoltClient
