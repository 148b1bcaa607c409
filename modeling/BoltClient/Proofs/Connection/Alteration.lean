import BoltClient.Proofs.Connection.Composing

namespace BoltClient.Connection

open Work

inductive Alters : Connection → Connection → Prop
  | same (c : Connection) : Alters c c
  | check (c : Connection) (direction : Direction) : Alters c (c.check direction).2
  | beginWrite (c : Connection) : Alters c c.beginWrite.2
  | endWrite (outcome : Output) (now : Instant) (c : Connection) : Alters c (c.endWrite outcome now).2
  | beginRead (now : Instant) (c : Connection) : Alters c (c.beginRead now).2
  | endRead (input : Input) (c : Connection) : Alters c (c.endRead input).2
  | receive (now : Instant) (c : Connection) (r : Response) :
      Alters c (receive { c with lastUsed := now } r).2.2
  | beginClose (c : Connection) : Alters c c.beginClose.2
  | unlink (c : Connection) : Alters c { c with transport := none }
  | part (c : Connection) : Alters c { c with closed := true, closing := false }
  | kill (c : Connection) : Alters c c.kill
  | queue (c : Connection) (r : Request) (purpose : Purpose) (watch : Watch) :
      Alters c (c.queue r purpose watch).2

/-- A question that changes a connection in one of these ways and brings no other link. -/
def Query.Alters : {β : Type} → Query β → Prop
  | _, .edit f => ∀ now c, Connection.Alters c (f now c).2
  | _, .transfer (.connect ..) | _, .transfer (.dial _) => False
  | _, .transfer _ => True

section

variable {p : {β : Type} → Query β → Prop} {α : Type}

theorem asks_edit {f : Instant → Connection → α × Connection} (h : p (.edit f)) :
    (edit f : Task α).Asks p := ⟨h, fun _ => trivial⟩

theorem asks_attempt {f : Instant → Connection → Except Error α × Connection} (h : p (.edit f)) :
    (attempt f).run.Asks p := ⟨h, fun _ => trivial⟩

theorem asks_editAmid {f : Instant → Connection → α × Connection} (h : p (.edit f)) :
    (edit f : Attempt α).run.Asks p := ⟨h, fun _ => trivial⟩

theorem asks_transfer {t : Transfer α} (h : p (.transfer t)) : (transfer t : Task α).Asks p :=
  ⟨h, fun _ => trivial⟩

theorem asks_transferAmid {t : Transfer α} (h : p (.transfer t)) :
    (transfer t : Attempt α).run.Asks p := ⟨h, fun _ => trivial⟩

end

theorem flush_alters : flush.run.Asks Query.Alters := by
  unfold flush
  refine Asks.orFail (asks_attempt fun _ c => .beginWrite c) fun out => ?_
  cases out with
  | none => exact asks_ok _
  | some o =>
    exact Asks.orFail (asks_transferAmid trivial) fun outcome =>
      asks_attempt fun now c => .endWrite outcome now c

theorem nextAnswer_alters : nextAnswer.run.Asks Query.Alters := by
  unfold nextAnswer
  refine asks_iterateOrFail _ fun _ => Asks.orFail (asks_attempt .beginRead) fun found => ?_
  cases found with
  | answer r => exact asks_ok _
  | read link deadline =>
    exact Asks.orFail (asks_transferAmid trivial) fun input =>
      Asks.orFail (asks_attempt fun _ c => .endRead input c) fun _ => asks_ok _

theorem fetchOne_alters : fetchOne.run.Asks Query.Alters := by
  unfold fetchOne
  refine Asks.orFail (asks_attempt fun _ c => .check c .reading) fun _ => ?_
  refine Asks.orFail (asks_editAmid fun _ c => .same c) fun empty => ?_
  dsimp only
  split
  · exact asks_ok _
  · exact Asks.orFail nextAnswer_alters fun r => asks_editAmid fun now c => .receive now c r

theorem hangUp_alters : hangUp.Asks Query.Alters := by
  unfold hangUp
  refine Asks.andThen (asks_edit fun _ c => .unlink c) fun what => ?_
  dsimp only
  split
  · exact Asks.andThen (asks_transfer trivial) fun _ => asks_edit fun _ c => .part c
  · exact asks_edit fun _ c => .part c

theorem close_alters : close.Asks Query.Alters := by
  unfold close
  refine Asks.andThen (asks_edit fun _ c => .beginClose c) fun todo => ?_
  match todo with
  | none => exact asks_pure _
  | some false => exact hangUp_alters
  | some true => exact Asks.andThen flush_alters fun _ => hangUp_alters

theorem alters_basics : Basics fun {α : Type} (w : Task α) => w.Asks Query.Alters where
  toComposes := composes_asks
  looking _ := asks_edit fun _ c => .same c
  queueing r purpose watch := asks_attempt fun _ c => .queue c r purpose watch
  checking direction := asks_attempt fun _ c => .check c direction
  writing := flush_alters
  fetching := fetchOne_alters
  killing := asks_edit fun _ c => .kill c
  closing := close_alters

theorem sendAll_alters : sendAll.run.Asks Query.Alters := alters_basics.sendAll

theorem reset_alters : reset.run.Asks Query.Alters := alters_basics.reset

theorem fetchMessage_alters : fetchMessage.run.Asks Query.Alters := alters_basics.fetchMessage

theorem fetchAll_alters : fetchAll.run.Asks Query.Alters := alters_basics.fetchAll

end BoltClient.Connection
