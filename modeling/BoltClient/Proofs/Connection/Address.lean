import BoltClient.Connection.Opening
import BoltClient.Pool.Task
import BoltClient.Proofs.Connection.Alteration
import BoltClient.Proofs.Connection.Changes

namespace BoltClient

namespace Connection

open Work

def Query.Stays : {β : Type} → Query β → Prop
  | _, .edit f => ∀ now c, (f now c).2.address = c.address
  | _, .transfer (.connect ..) | _, .transfer (.dial _) => False
  | _, .transfer _ => True

/-- Where a connection goes, and by when what is done with it has to be done, is as before. -/
structure SameTerms (c d : Connection) : Prop where
  address : d.address = c.address
  deadline : d.deadline = c.deadline

theorem terms_check (c : Connection) (direction : Direction) : SameTerms c (c.check direction).2 := by
  have hsettle : SameTerms c c.settleFlight := by
    unfold settleFlight
    split <;> exact ⟨rfl, rfl⟩
  unfold check
  dsimp only
  split
  · exact hsettle
  · split <;> exact hsettle

theorem terms_beginWrite (c : Connection) : SameTerms c c.beginWrite.2 := by
  unfold beginWrite
  split
  · exact ⟨rfl, rfl⟩
  · dsimp only
    split <;> exact ⟨rfl, rfl⟩

theorem terms_endWrite (outcome : Output) (now : Instant) (c : Connection) :
    SameTerms c (c.endWrite outcome now).2 := by
  cases outcome <;> exact ⟨rfl, rfl⟩

theorem terms_beginRead (now : Instant) (c : Connection) : SameTerms c (c.beginRead now).2 := by
  unfold beginRead
  split
  dsimp only
  split
  · exact ⟨rfl, rfl⟩
  · exact ⟨rfl, rfl⟩
  · split <;> exact ⟨rfl, rfl⟩

theorem terms_endRead (input : Input) (c : Connection) : SameTerms c (c.endRead input).2 := by
  cases input <;> exact ⟨rfl, rfl⟩

theorem terms_receive (c : Connection) (r : Response) : SameTerms c (c.receive r).2.2 := by
  obtain ⟨_, _, _, _, _, _, _, _, _, hc⟩ := receive_frame c r
  rw [hc]
  exact ⟨rfl, rfl⟩

theorem terms_put {c d : Connection} {r : Request} (h : c.put r = .ok d) : SameTerms c d := by
  unfold put at h
  split at h
  · cases h
    exact ⟨rfl, rfl⟩
  · cases h

theorem terms_beginClose (c : Connection) : SameTerms c c.beginClose.2 := by
  unfold beginClose
  split
  · exact ⟨rfl, rfl⟩
  · dsimp only
    split
    · exact ⟨rfl, rfl⟩
    · split
      · next hput =>
        have h := terms_put hput
        exact ⟨h.address, h.deadline⟩
      · exact ⟨rfl, rfl⟩

theorem terms_queue (c : Connection) (r : Request) (purpose : Purpose) (watch : Watch) :
    SameTerms c (c.queue r purpose watch).2 := by
  unfold queue
  split
  · exact ⟨rfl, rfl⟩
  · next hput =>
    have h := terms_put hput
    exact ⟨h.address, h.deadline⟩

theorem Alters.terms {c d : Connection} (h : Alters c d) : SameTerms c d := by
  cases h with
  | same | unlink | part | kill => exact ⟨rfl, rfl⟩
  | check _ direction => exact terms_check c direction
  | beginWrite => exact terms_beginWrite c
  | endWrite outcome now => exact terms_endWrite outcome now c
  | beginRead now => exact terms_beginRead now c
  | endRead input => exact terms_endRead input c
  | receive now _ r =>
    have h := terms_receive { c with lastUsed := now } r
    exact ⟨h.address, h.deadline⟩
  | beginClose => exact terms_beginClose c
  | queue _ r purpose watch => exact terms_queue c r purpose watch

theorem Query.Alters.stays {β : Type} {q : Query β} (h : q.Alters) : q.Stays := by
  cases q with
  | edit f => exact fun now c => (h now c).terms.address
  | transfer t => cases t <;> exact h

theorem stays_basics : Basics fun {α : Type} (w : Task α) => w.Asks Query.Stays where
  toComposes := composes_asks
  looking f := (alters_basics.looking f).mono Query.Alters.stays
  queueing r purpose watch := (alters_basics.queueing r purpose watch).mono Query.Alters.stays
  checking direction := (alters_basics.checking direction).mono Query.Alters.stays
  writing := flush_alters.mono Query.Alters.stays
  fetching := fetchOne_alters.mono Query.Alters.stays
  killing := alters_basics.killing.mono Query.Alters.stays
  closing := close_alters.mono Query.Alters.stays

theorem close_stays : close.Asks Query.Stays := stays_basics.closing

theorem reset_stays : reset.run.Asks Query.Stays := stays_basics.reset

theorem fetchAll_stays : fetchAll.run.Asks Query.Stays := stays_basics.fetchAll

theorem hello_stays (config : ConnectionConfig) : (hello config).run.Asks Query.Stays := stays_basics.hello config

theorem address_modifyExchange (c : Connection) (n : Nat) (f : Exchange → Exchange) :
    (c.modifyExchange n f).address = c.address := by
  unfold modifyExchange
  split <;> rfl

theorem sendAll_stays : sendAll.run.Asks Query.Stays := stays_basics.sendAll

theorem route_stays (context : Entries Value) (bookmarks : List String) (database user : Option String) :
    (route context bookmarks database user).run.Asks Query.Stays :=
  stays_basics.route (fun n _ => asks_edit fun _ c => address_modifyExchange c n _) context bookmarks database user

end Connection

namespace Opening

open Work

def anything : Surroundings Transfer Unit where
  Answers _ _ _ _ := True
  Allows _ _ := True

theorem safe_anything {α : Type} (w : Work Transfer α) : w.Safe anything () fun _ _ => True :=
  safe_of_allows (fun _ _ => trivial) w

/-- A connection keeps its address while somebody carries it. -/
theorem safe_carry {α : Type} {w : Connection.Task α} (h : w.Asks Connection.Query.Stays)
    (c : Connection) : (Connection.carry c w).Safe anything () fun r _ => r.2.address = c.address := by
  induction w generalizing c with
  | done a => exact rfl
  | ask q next ih =>
    cases q with
    | edit f =>
      refine ⟨trivial, fun now _ _ => (ih _ (h.2 _) _).mono fun r _ hr => ?_⟩
      rw [hr, h.1 now c]
    | transfer t => exact ⟨trivial, fun b _ _ => ih b (h.2 b) c⟩
  | loop body x next ihbody ihnext =>
    refine ⟨fun y _ => y.2.address = c.address, rfl, fun y _ hy => ?_⟩
    obtain ⟨z, d⟩ := y
    refine Safe.bind ((ihbody z (h.1 z) d).mono fun r _ hr => ?_)
    obtain ⟨_ | b, e⟩ := r
    · exact hr.trans hy
    · refine (ihnext b (h.2 b) e).mono fun r _ hr' => ?_
      rw [hr', hr]
      exact hy

/-- A connection is established where HELLO goes well. -/
theorem establish_gives {P : Connection → Prop} {s : Setting} {endpoint : Option Endpoint} {config : ConnectionConfig}
    (h : ∀ version now, (Connection.carry
        { Connection.ofLink s.link s.address endpoint version config.lifetime now with deadline := s.deadline }
        (Connection.hello config).run).Safe anything () fun r _ => r.1 = .ok () → P { r.2 with deadline := .never }) :
    (s.establish endpoint config).run.Safe anything () fun r _ => ∀ c, r = .ok c → P c := by
  unfold Setting.establish
  refine Safe.orFail ((safe_anything _).mono fun version _ _ => ?_)
  cases version with
  | error e => exact fun c hc => nomatch hc
  | ok version =>
    refine Safe.orFail ((safe_anything _).mono fun now _ _ => ?_)
    cases now with
    | error e => exact fun c hc => nomatch hc
    | ok now =>
      refine Safe.orFail (Safe.map ((h version now).mono fun r _ hr => ?_))
      obtain ⟨_ | _, d⟩ := r
      · exact fun c hc => nomatch hc
      · rintro c ⟨⟩
        exact hr rfl

/-- Whatever the network says, an opener gives a connection to the address that it is asked for. -/
def Faithful (opener : Pool.Opener) : Prop :=
  ∀ a deadline, (opener a deadline).run.Safe anything () fun r _ => ∀ c, r = .ok c → c.address = a

theorem establish_faithful (s : Setting) (endpoint : Option Endpoint) (config : ConnectionConfig) :
    (s.establish endpoint config).run.Safe anything () fun r _ => ∀ c, r = .ok c → c.address = s.address :=
  establish_gives fun _ _ => (safe_carry (Connection.hello_stays config) _).mono fun _ _ hr _ => hr

section

variable {config : ConnectionConfig} {P : Address → Connection → Prop}

/-- Whoever dials is given what is established. -/
theorem dial_gives (h : ∀ (s : Setting) endpoint, (s.establish endpoint config).run.Safe anything ()
      fun r _ => ∀ c, r = .ok c → P s.address c) (a : Address) (deadline : Deadline) :
    (dial config a deadline).run.Safe anything () fun r _ => ∀ c, r = .ok c → P a c := by
  unfold dial
  refine Safe.orFail ((safe_anything _).mono fun link _ _ => ?_)
  cases link with
  | error e => exact fun c hc => nomatch hc
  | ok link =>
    refine Safe.orFail ((safe_anything _).mono fun settled _ _ => ?_)
    cases settled with
    | error e => exact fun c hc => nomatch hc
    | ok => exact h ⟨link, a, deadline⟩ none

/-- Whoever resolves an address and connects to one of its endpoints is given what is established. -/
theorem reach_gives (h : ∀ (s : Setting) endpoint, (s.establish endpoint config).run.Safe anything ()
      fun r _ => ∀ c, r = .ok c → P s.address c) (a : Address) (deadline : Deadline) :
    (reach config a deadline).run.Safe anything () fun r _ => ∀ c, r = .ok c → P a c := by
  unfold reach
  refine Safe.orFail ((safe_anything _).mono fun found _ _ => ?_)
  match found with
  | .error e => exact fun c hc => nomatch hc
  | .ok none => exact fun c hc => nomatch hc
  | .ok (some (.error e)) => exact fun c hc => nomatch hc
  | .ok (some (.ok endpoints)) =>
    refine Safe.orFail ((safe_anything _).mono fun linked _ _ => ?_)
    match linked with
    | .error e => exact fun c hc => nomatch hc
    | .ok (link, e) => exact h ⟨link, a, deadline⟩ (some e)

end

/-- Openers that dial are faithful. -/
theorem dial_faithful (config : ConnectionConfig) : Faithful (dial config) :=
  dial_gives fun s endpoint => establish_faithful s endpoint config

/-- Openers that resolve an address and connect to one of its endpoints are faithful. -/
theorem reach_faithful (config : ConnectionConfig) : Faithful (reach config) :=
  reach_gives fun s endpoint => establish_faithful s endpoint config

end Opening
end BoltClient
