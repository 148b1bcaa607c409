import BoltClient.Proofs.Connection.Accounting
import BoltClient.Stage.Command

namespace BoltClient

namespace Connection

open Work

theorem hangUp_closes (s : Audited) : hangUp.Safe audit s fun _ t => t.connection.closed = true := by
  unfold hangUp
  refine Safe.andThen (Audited.safe_edit fun _ => ?_)
  dsimp only
  split
  · exact Safe.andThen ⟨trivial, fun _ t _ => Audited.safe_edit fun _ => rfl⟩
  · exact Audited.safe_edit fun _ => rfl

theorem close_inOrder : Maintains audit InOrder close := by
  intro s hs
  unfold close
  refine Safe.andThen (Audited.safe_edit fun _ => ?_)
  have hbegin := beginClose_cases s.connection
  generalize s.connection.beginClose = began at hbegin
  obtain ⟨todo, d⟩ := began
  match todo with
  | none =>
    obtain ⟨_, rfl⟩ := hbegin
    exact hs
  | some false => exact (hangUp_closes _).mono fun _ _ ht => .inl ht
  | some true =>
    have hwrite := safe_of_allows (R := audit) (s := ⟨d, s.account⟩) (fun _ _ => trivial) flush.run
    exact Safe.andThen (hwrite.mono fun _ _ _ => (hangUp_closes _).mono fun _ _ ht => .inl ht)

theorem inOrder_basics : Basics fun {α : Type} (w : Task α) => Maintains audit InOrder w where
  toComposes := maintains_composes
  looking := look_inOrder
  queueing := queue_inOrder
  checking := check_inOrder
  writing := flush_inOrder
  fetching := fetchOne_inOrder
  killing := kill_inOrder
  closing := close_inOrder

theorem sameLine_modifyExchange (c : Connection) (n : Nat) (f : Exchange → Exchange) :
    SameLine c (c.modifyExchange n f) := by
  unfold modifyExchange
  split
  · exact ⟨rfl, rfl, rfl, rfl, rfl, rfl, rfl, rfl⟩
  · exact ⟨rfl, rfl, rfl, List.length_modify _ _ _, rfl, rfl, rfl, rfl⟩

theorem route_inOrder (context : Entries Value) (bookmarks : List String) (database user : Option String) :
    Maintains audit InOrder (route context bookmarks database user).run :=
  inOrder_basics.route (fun n _ => edit_sameLine fun _ c => sameLine_modifyExchange c n _) context bookmarks database
    user

def Query.Lone : {β : Type} → Query β → Prop
  | _, .transfer (.connect ..) | _, .transfer (.dial _) => False
  | _, _ => True

theorem Query.Stays.lone {β : Type} {q : Query β} (h : q.Stays) : q.Lone := by
  cases q with
  | edit f => exact trivial
  | transfer t => cases t <;> exact h

theorem InOrder.queueFor {s : Audited} (h : InOrder s) (r : Except Error Request) (database : Option String)
    (watch : Watch) : InOrder ⟨(s.connection.queueFor r database watch).2, s.account⟩ := by
  cases r with
  | error e => exact h
  | ok r =>
    have hnoted : InOrder ⟨{ s.connection with lastDatabase := database }, s.account⟩ :=
      h.congr ⟨rfl, rfl, rfl, rfl, rfl, rfl, rfl, rfl⟩
    exact hnoted.queue r .plain watch

end Connection

namespace Stage

open Work
open Connection (Audited InOrder Query audit edit_inOrder edit_sameLine look_inOrder)

theorem Queueing.apply_inOrder (q : Queueing) (watch : Watch) {s : Audited} (h : InOrder s) :
    InOrder ⟨(q.apply watch s.connection).2, s.account⟩ := by
  cases q with
  | run | begin => exact h.queueFor _ _ watch
  | pull | discard | commit | rollback | other => exact h.queue _ _ watch

namespace Command

theorem work_inOrder (labels : Labels) (k : Command) : Maintains audit InOrder (k.work labels) := by
  have hbasics := Connection.inOrder_basics
  cases k with
  | queue label q watch => exact hbasics.map (edit_inOrder fun _ _ hs => q.apply_inOrder watch hs)
  | hello config => exact hbasics.map (hbasics.hello config)
  | route context bookmarks database user =>
    exact hbasics.map (Connection.route_inOrder context bookmarks database user)
  | reset => exact hbasics.map hbasics.reset
  | sendAll => exact hbasics.map hbasics.sendAll
  | fetchMessage => exact hbasics.map hbasics.fetchMessage
  | fetchAll => exact hbasics.map hbasics.fetchAll
  | close => exact hbasics.map hbasics.closing
  | kill => exact hbasics.map hbasics.killing
  | markStale => exact hbasics.map (edit_sameLine fun _ _ => ⟨rfl, rfl, rfl, rfl, rfl, rfl, rfl, rfl⟩)
  | setDeadline | isIdleFor => exact edit_sameLine fun _ _ => ⟨rfl, rfl, rfl, rfl, rfl, rfl, rfl, rfl⟩
  | exchange | facts => exact look_inOrder _
  | takeRecords label =>
    refine edit_sameLine fun _ c => ?_
    split
    · next n _ => exact Connection.sameLine_modifyExchange c n _
    · exact ⟨rfl, rfl, rfl, rfl, rfl, rfl, rfl, rfl⟩

theorem work_lone (labels : Labels) (k : Command) : (k.work labels).Asks Query.Lone := by
  have hlone {α : Type} {w : Connection.Task α} (h : w.Asks Query.Stays) : w.Asks Query.Lone :=
    h.mono Query.Stays.lone
  cases k with
  | queue | kill | markStale => exact Asks.map (Connection.asks_edit trivial)
  | setDeadline | isIdleFor | exchange | takeRecords | facts => exact Connection.asks_edit trivial
  | hello config => exact Asks.map (hlone (Connection.hello_stays config))
  | route context bookmarks database user =>
    exact Asks.map (hlone (Connection.route_stays context bookmarks database user))
  | reset => exact Asks.map (hlone Connection.reset_stays)
  | sendAll => exact Asks.map (hlone Connection.sendAll_stays)
  | fetchMessage => exact Asks.map (hlone (Connection.fetchMessage_alters.mono Query.Alters.stays))
  | fetchAll => exact Asks.map (hlone Connection.fetchAll_stays)
  | close => exact Asks.map (hlone Connection.close_stays)

end Command
end Stage
end BoltClient
