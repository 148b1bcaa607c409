import BoltClient.Connection.Task
import BoltClient.Proofs.Work.Safety

namespace BoltClient

def Transfer.heard : {β : Type} → Transfer β → β → List UInt8
  | _, .read .., .bytes b => b
  | _, _, _ => []

namespace Connection

structure Session where
  connection : Connection
  heard : List UInt8 := []

namespace Session

def Answers (s : Session) : {β : Type} → Query β → β → Session → Prop
  | _, .edit f, b, t =>
    ∃ now, b = (f now s.connection).1 ∧ t = ⟨(f now s.connection).2, s.heard⟩
  | _, .transfer q, b, t => t = ⟨s.connection, s.heard ++ q.heard b⟩

theorem answers_edit {α : Type} {f : Instant → Connection → α × Connection} {c d : Connection}
    {heard : List UInt8} {b : α} (now : Instant) (h : f now c = (b, d)) :
    Answers ⟨c, heard⟩ (.edit f) b ⟨d, heard⟩ := ⟨now, by rw [h], by rw [h]⟩

/-- Where the network is asked, which is where work can wait. -/
def Allows (s : Session) (I : Session → Prop) : {β : Type} → Query β → Prop
  | _, .edit _ => True
  | _, .transfer _ => I s

/-- A network that may do anything, under work that keeps to an invariant whenever it asks. -/
def network (I : Session → Prop) : Surroundings Query Session where
  Answers s q b t := s.Answers q b t
  Allows s q := s.Allows I q

abbrev anyNetwork : Surroundings Query Session := network fun _ => True

section

variable {I : Session → Prop} {s : Session} {α : Type}

theorem safe_edit {f : Instant → Connection → α × Connection} {post : α → Session → Prop}
    (h : ∀ now, post (f now s.connection).1 ⟨(f now s.connection).2, s.heard⟩) :
    (edit f : Task α).Safe (network I) s post := by
  refine ⟨trivial, ?_⟩
  rintro b t ⟨now, rfl, rfl⟩
  exact h now

theorem safe_attempt {f : Instant → Connection → Except Error α × Connection}
    {post : Except Error α → Session → Prop}
    (h : ∀ now, post (f now s.connection).1 ⟨(f now s.connection).2, s.heard⟩) :
    (attempt f).run.Safe (network I) s post := safe_edit h

/-- A change that cannot fail, amid work that can. -/
theorem safe_editAmid {f : Instant → Connection → α × Connection}
    {post : Except Error α → Session → Prop}
    (h : ∀ now, post (.ok (f now s.connection).1) ⟨(f now s.connection).2, s.heard⟩) :
    (edit f : Attempt α).run.Safe (network I) s post := by
  refine ⟨trivial, ?_⟩
  rintro b t ⟨now, rfl, rfl⟩
  exact h now

theorem safe_transfer {q : Transfer α} {post : α → Session → Prop} (hI : I s)
    (h : ∀ b, post b ⟨s.connection, s.heard ++ q.heard b⟩) :
    (transfer q : Task α).Safe (network I) s post := by
  refine ⟨hI, ?_⟩
  rintro b t rfl
  exact h b

theorem safe_transferAmid {q : Transfer α} {post : Except Error α → Session → Prop} (hI : I s)
    (h : ∀ b, post (.ok b) ⟨s.connection, s.heard ++ q.heard b⟩) :
    (transfer q : Attempt α).run.Safe (network I) s post := by
  refine ⟨hI, ?_⟩
  rintro b t rfl
  exact h b

/-- A question that brings no bytes. -/
theorem safe_silent {q : Transfer α} {post : α → Session → Prop} (hI : I s) (hq : ∀ b, q.heard b = [])
    (h : ∀ b, post b s) : (transfer q : Task α).Safe (network I) s post := by
  refine safe_transfer hI fun b => ?_
  rw [hq, List.append_nil]
  exact h b

theorem safe_silentAmid {q : Transfer α} {post : Except Error α → Session → Prop} (hI : I s)
    (hq : ∀ b, q.heard b = []) (h : ∀ b, post (.ok b) s) :
    (transfer q : Attempt α).run.Safe (network I) s post := by
  refine safe_transferAmid hI fun b => ?_
  rw [hq, List.append_nil]
  exact h b

theorem safe_taskAmid {w : Task α} {post : Except Error α → Session → Prop}
    (h : w.Safe (network I) s fun a t => post (.ok a) t) :
    (liftM w : Attempt α).run.Safe (network I) s post := Work.Safe.map h

theorem safe_anyNetwork (w : Task α) : w.Safe anyNetwork s fun _ _ => True :=
  Work.safe_of_allows (fun _ q => by cases q <;> exact trivial) w

/-- What the network does is the same whether or not somebody keeps to an invariant. -/
theorem unguarded {w : Task α} {post : α → Session → Prop} (h : w.Safe (network I) s post) :
    w.Safe anyNetwork s post :=
  ((safe_anyNetwork w).both h fun hb => hb).mono fun _ _ ht => ht.2

theorem guarded {x y : Task α × Session} (I : Session → Prop) (h : Work.Leads anyNetwork x y) :
    Work.Leads (network I) x y := by
  induction h with
  | refl => exact .refl
  | tail _ hstep ih =>
    refine ih.tail ?_
    cases hstep with
    | answer hb => exact .answer hb
    | round => exact .round

end

end Session
end Connection
end BoltClient
