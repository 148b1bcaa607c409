import BoltClient.Proofs.Connection.Bookkeeping
import BoltClient.Proofs.Connection.Login

namespace BoltClient

namespace Connection

open Work Session

section

variable {c₀ : Connection} {begun : List Exchange} {told : List Response} {s : Session}

/-- What is sent after a request to log in ends in an error. -/
theorem fetchMessage_sent (h : Greets c₀ begun told s) (hsent : s.connection.outbox.size = 0) :
    fetchMessage.run.Safe anyNetwork s fun r t => r.toBool = true → t.connection.outbox.size = 0 := by
  unfold fetchMessage
  have hfetch := @fetchOne_takes s c₀ told begun 0 h.works (by simpa using h.tracks)
  refine Safe.orFail (hfetch.mono fun r t ht => ?_)
  match r with
  | .error e => exact nofun
  | .ok (counts, trouble) =>
    obtain ⟨_, hnone, rfl⟩ | ⟨x, d, hsome, htakes, hreceived⟩ := ht
    · obtain rfl : trouble = none := hnone
      exact safe_ok fun _ => hsent
    · obtain ⟨y, rest, hpending⟩ := List.exists_cons_of_ne_nil hsome
      have hlogin := h.purposes y (by rw [hpending]; exact List.mem_cons_self)
      have hanswer := receive_of_login (htakes.books.pending.trans hpending) hlogin x
      have houtbox := outbox_receive d x
      rw [hreceived] at hanswer houtbox
      cases trouble with
      | none =>
        refine safe_ok fun _ => ?_
        rw [houtbox, htakes.outbox]
        exact hsent
      | some trouble =>
        obtain ⟨hkill, herror⟩ := hanswer
        obtain ⟨purpose, remedy, error⟩ := trouble
        obtain rfl : remedy = .kill := hkill
        obtain ⟨e, rfl⟩ := Option.ne_none_iff_exists'.mp herror
        exact Safe.orFail (Safe.orFail (safe_editAmid fun _ => safe_throw nofun))

theorem fetchAll_sent (h : Greets c₀ begun told s) (hsent : s.connection.outbox.size = 0) :
    fetchAll.run.Safe anyNetwork s fun r t => r.toBool = true → t.connection.outbox.size = 0 := by
  unfold fetchAll
  refine safe_iterateOrFail (fun _ t => (∃ told, Greets c₀ begun told t) ∧ t.connection.outbox.size = 0)
    ⟨⟨told, h⟩, hsent⟩ ?_
  rintro _ t ⟨⟨told, ht⟩, hsent⟩
  refine Safe.orFail (safe_editAmid fun _ => ?_)
  dsimp only
  split
  · exact safe_ok fun _ => hsent
  · have hboth := (fetchMessage_greets ht).both (fetchMessage_sent ht hsent) fun hb => hb
    refine Safe.orFail (hboth.mono fun r u hu => ?_)
    cases r with
    | error e => exact nofun
    | ok => exact safe_ok ⟨hu.1, hu.2 rfl⟩

theorem hello_sent {c : Connection} (config : ConnectionConfig) (hworks : Works c) (hpending : c.pending = []) :
    (hello config).run.Safe anyNetwork ⟨c, []⟩ fun r t => r.toBool = true → t.connection.outbox.size = 0 := by
  unfold hello
  refine Safe.orFail (safe_editAmid fun _ => ?_)
  dsimp only
  cases Protocol.hello c.version config with
  | error e => exact nofun
  | ok requests =>
    refine Safe.orFail (safe_ok (Safe.orFail ?_))
    refine (queueHello_greets requests hworks hpending).mono fun r t ht => ?_
    cases r with
    | error e => exact nofun
    | ok =>
      refine Safe.orFail ((ht rfl).mono fun r u hu => ?_)
      cases r with
      | error e => exact nofun
      | ok =>
        obtain ⟨hgreets, hsent⟩ := hu rfl
        refine Safe.orFail ((fetchAll_sent hgreets hsent).mono fun r v hv => ?_)
        cases r with
        | error e => exact nofun
        | ok => exact safe_ok fun _ => hv rfl

end

/-- Whoever logs in without an error has a connection to which nothing is left to come and which has nothing left
to send. -/
theorem hello_idle {c : Connection} (config : ConnectionConfig) (h : c.Idle) :
    (hello config).run.Safe audit ⟨c, { start := c }⟩ fun r t => r = .ok () → t.connection.Idle := by
  let session (s : Audited) : Session := ⟨s.connection, s.account.heard⟩
  have hseen {post : Except Error Unit → Session → Prop}
      (hsafe : (hello config).run.Safe anyNetwork ⟨c, []⟩ post) :
      (hello config).run.Safe audit ⟨c, { start := c }⟩ fun r t => post r (session t) := by
    refine Safe.seen session (fun _ => trivial) ?_ hsafe
    intro β s t q b hb
    cases q with
    | edit f =>
      obtain ⟨now, hb, rfl⟩ := hb
      exact ⟨now, hb, rfl⟩
    | transfer q =>
      obtain rfl : t = _ := hb
      exact rfl
  have hgreets := hseen (hello_greets config h.works h.pending)
  have hsent := hseen (hello_sent config h.works h.pending)
  refine (((inOrder_basics.hello config _ h.inOrder).both hgreets id).both hsent id).mono fun r t ht hr => ?_
  obtain ⟨⟨horder, hgreets⟩, hsent⟩ := ht
  obtain ⟨_, _, _, hlogged⟩ := hgreets hr
  subst hr
  rcases horder with hclosed | ⟨_, hreckons⟩
  · rw [hlogged.works.closed] at hclosed
    cases hclosed
  · exact ⟨hreckons.works, hreckons.calm, hreckons.linked, hlogged.pending, hsent rfl⟩

end Connection

namespace Opening

open Work
open Connection (Audited audit)

/-- Work on a connection for somebody who carries it, of which an account is kept. -/
theorem safe_carry_audit {α : Type} {w : Connection.Task α} {s : Audited} {post : α → Audited → Prop}
    (h : w.Safe audit s post) :
    (Connection.carry s.connection w).Safe anything () fun r _ => ∃ a, post r.1 ⟨r.2, a⟩ := by
  induction w generalizing s with
  | done a => exact ⟨s.account, h⟩
  | ask q next ih =>
    cases q with
    | edit f => exact ⟨trivial, fun now _ _ => ih _ (h.2 _ ⟨(f now s.connection).2, s.account⟩ ⟨now, rfl, rfl⟩)⟩
    | transfer q => exact ⟨trivial, fun b _ _ => ih b (s := ⟨s.connection, s.account.note q b⟩) (h.2 b _ rfl)⟩
  | loop body x next ihbody ihnext =>
    obtain ⟨inv, hx, hbody⟩ := h
    refine ⟨fun y _ => ∃ a, inv y.1 ⟨y.2, a⟩, ⟨s.account, hx⟩, ?_⟩
    rintro ⟨y, c⟩ _ ⟨a, hy⟩
    refine Safe.bind ((ihbody y (hbody y ⟨c, a⟩ hy)).mono ?_)
    rintro ⟨z | b, d⟩ _ ⟨a', hr⟩
    · exact ⟨a', hr⟩
    · exact ihnext b hr

/-- Whatever the network says, an opener gives a connection to which nothing is left to come and which has
nothing left to send. -/
def Neat (opener : Pool.Opener) : Prop :=
  ∀ a deadline, (opener a deadline).run.Safe anything () fun r _ => ∀ c, r = .ok c → c.Idle

theorem establish_neat (s : Setting) (endpoint : Option Endpoint) (config : ConnectionConfig) :
    (s.establish endpoint config).run.Safe anything () fun r _ => ∀ c, r = .ok c → c.Idle := by
  apply establish_gives
  intro version now
  have hnew : (s.agreed endpoint config version now).Idle := ⟨⟨rfl, rfl, rfl⟩, rfl, nofun, rfl, rfl⟩
  refine (safe_carry_audit (Connection.hello_idle config hnew)).mono fun r _ hr hok => ?_
  obtain ⟨_, hidle⟩ := hr
  obtain ⟨hworks, hcalm, hlinked, hpending, hsent⟩ := hidle hok
  exact ⟨⟨hworks.settled, hworks.defunct, hworks.closed⟩, hcalm, hlinked, hpending, hsent⟩

/-- Openers that resolve an address and connect to one of its endpoints are neat. -/
theorem reach_neat (config : ConnectionConfig) : Neat (reach config) :=
  reach_gives (P := fun _ c => c.Idle) fun s endpoint => establish_neat s endpoint config

end Opening
end BoltClient
