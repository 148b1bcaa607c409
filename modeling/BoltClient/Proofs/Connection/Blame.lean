import BoltClient.Connection.Task
import BoltClient.Proofs.Work.Sparing

namespace BoltClient.Connection

open Work

variable {α : Type} {detail : String}

/-- Surroundings of which nothing is known: each look is at some connection at some time, and anything can come from
the network. -/
def anything : Surroundings Query Unit where
  Answers
    | _, .edit f, b, _ => ∃ now c, (f now c).1 = b
    | _, .transfer _, _, _ => True
  Allows _ _ := True

theorem safe_taskAmidAnything (w : Task α) {s : Unit} {post : Except Error α → Unit → Prop}
    (h : ∀ a t, post (.ok a) t) : (liftM w : Attempt α).run.Safe anything s post :=
  Safe.map ((safe_of_allows (fun _ _ => trivial) w).mono fun a t _ => h a t)

abbrev Blameless (detail : String) (w : Attempt α) : Prop := Sparing anything (.routing detail) w

theorem blameless_task (w : Task α) : Blameless detail (liftM w : Attempt α) := sparing_lift (fun _ _ => trivial) w

theorem blameless_attempt {f : Instant → Connection → Except Error α × Connection}
    (h : ∀ now c, (f now c).1 ≠ .error (.routing detail)) : Blameless detail (attempt f) := by
  refine fun _ => ⟨trivial, ?_⟩
  rintro b t ⟨now, c, rfl⟩
  exact h now c

theorem lossError_ne (c : Connection) (direction : Direction) (cause : Option String) :
    c.lossError direction cause ≠ .routing detail := by
  unfold lossError
  dsimp only
  split
  · exact nofun
  · split <;> exact nofun

theorem check_ne (c : Connection) (direction : Direction) : (c.check direction).1 ≠ .error (.routing detail) := by
  unfold check
  dsimp only
  split
  · exact nofun
  · split <;> exact nofun

theorem queue_ne (c : Connection) (r : Request) (purpose : Purpose) (watch : Watch) :
    (c.queue r purpose watch).1 ≠ .error (.routing detail) := by
  unfold queue put
  cases PackStream.encode r.toStruct.value <;> exact nofun

theorem blameless_flush : Blameless detail flush := by
  unfold flush
  refine (blameless_attempt fun _ c => ?_).orFail fun outgoing => ?_
  · unfold beginWrite
    split
    · exact nofun
    · dsimp only
      split
      · exact nofun
      · exact fun heq => lossError_ne _ _ _ (Except.error.inj heq)
  · cases outgoing with
    | none => exact sparing_ok ()
    | some o =>
      refine (blameless_task _).orFail fun outcome => blameless_attempt fun _ c => ?_
      unfold endWrite
      cases outcome
      · exact nofun
      · exact fun heq => lossError_ne _ _ _ (Except.error.inj heq)
      · exact fun heq => lossError_ne _ _ _ (Except.error.inj heq)

theorem blameless_sendAll : Blameless detail sendAll :=
  (blameless_attempt fun _ c => c.check_ne _).orFail fun _ => blameless_flush

theorem ofWire_ne (e : Wire.Error) : Error.ofWire e ≠ .routing detail := by
  cases e <;> exact nofun

theorem blameless_nextAnswer : Blameless detail nextAnswer := by
  unfold nextAnswer
  refine sparing_iterateOrFail _ fun _ => (blameless_attempt fun now c => ?_).orFail fun found => ?_
  · unfold beginRead
    dsimp only
    split
    · exact fun heq => ofWire_ne _ (Except.error.inj heq)
    · exact nofun
    · split
      · exact nofun
      · exact fun heq => lossError_ne _ _ _ (Except.error.inj heq)
  · cases found with
    | answer r => exact sparing_ok _
    | read link deadline =>
      refine (blameless_task _).orFail fun input => .orFail (blameless_attempt fun _ c => ?_) fun _ => sparing_ok _
      unfold endRead
      cases input
      · exact nofun
      all_goals exact fun heq => lossError_ne _ _ _ (Except.error.inj heq)

/-- Trouble whose error is not for want of a router. -/
def BlamelessTrouble (detail : String) (trouble : Trouble) : Prop := trouble.error ≠ some (.routing detail)

/-- The error of trouble is what a server has reported, or that RESET has failed. -/
theorem blameless_receive {c : Connection} {r : Response} {trouble : Trouble}
    (h : (c.receive r).2.1 = some trouble) : BlamelessTrouble detail trouble := by
  unfold BlamelessTrouble
  unfold receive at h
  split at h
  · cases h
  · cases r with
    | record values =>
      dsimp only at h
      split at h
      · cases h
        exact nofun
      · cases h
    | success metadata => cases h
    | ignored =>
      dsimp only at h
      split at h
      · cases h
        exact nofun
      · cases h
    | failure metadata =>
      unfold failHead Error.ofServer at h
      dsimp only at h
      split at h
      · cases h
        exact nofun
      · cases h
        dsimp only
        split <;> exact nofun

/-- So is the error of trouble that comes with an answer. -/
theorem fetchOne_trouble (detail : String) (s : Unit) : fetchOne.run.Safe anything s fun r _ =>
    match r with
    | .ok (_, trouble) => ∀ x, trouble = some x → BlamelessTrouble detail x
    | .error e => e ≠ .routing detail := by
  have herror {β : Type} {r : Except Error β} {e : Error} (hr : r ≠ .error (.routing detail)) (he : r = .error e) :
      e ≠ .routing detail := fun heq => hr (heq ▸ he)
  have hcheck : Blameless detail (attempt fun _ c => c.check .reading) :=
    blameless_attempt fun _ c => c.check_ne .reading
  have hnext : Blameless detail nextAnswer := blameless_nextAnswer
  unfold fetchOne
  refine Safe.orFail ((hcheck s).mono fun r t hr => ?_)
  cases r with
  | error e => exact herror hr rfl
  | ok =>
    refine Safe.orFail (safe_taskAmidAnything _ fun quiet t => ?_)
    dsimp only
    split
    · refine safe_ok fun x hx => ?_
      cases hx
    · refine Safe.orFail ((hnext t).mono fun answer u hu => ?_)
      cases answer with
      | error e => exact herror hu rfl
      | ok answer =>
        refine ⟨trivial, ?_⟩
        rintro b v ⟨now, c, rfl⟩ x hx
        exact blameless_receive hx

/-- Whoever is blameless with whatever trouble there is is blameless after taking in an answer. -/
theorem blameless_fetchOne {f : Counts × Option Trouble → Attempt α}
    (hf : ∀ counts trouble, (∀ x, trouble = some x → BlamelessTrouble detail x) →
      Blameless detail (f (counts, trouble))) : Blameless detail (fetchOne >>= f) := by
  refine fun s => Safe.orFail ((fetchOne_trouble detail s).mono fun r t hr => ?_)
  match r with
  | .ok (counts, trouble) => exact hf counts trouble hr t
  | .error e => exact fun heq => hr (Except.error.inj heq)

theorem blameless_giveError {trouble : Trouble} (h : BlamelessTrouble detail trouble) :
    Blameless detail (giveError trouble) := by
  unfold giveError
  cases herror : trouble.error with
  | none => exact sparing_ok ()
  | some e => exact sparing_throw fun heq => h (herror.trans (congrArg some heq))

theorem blameless_settleBeforeReset {trouble : Trouble} (h : BlamelessTrouble detail trouble) :
    Blameless detail (settleBeforeReset trouble) := by
  unfold settleBeforeReset
  split
  · exact (blameless_task _).orFail fun _ => blameless_giveError h
  · split
    · exact sparing_ok ()
    · exact blameless_task _
    · exact blameless_task _

theorem blameless_reset : Blameless detail reset := by
  unfold reset
  refine (blameless_attempt fun _ c => c.queue_ne _ _ _).orFail fun _ => blameless_sendAll.orFail fun _ => ?_
  refine sparing_iterateOrFail _ fun _ => (blameless_task _).orFail fun quiet => ?_
  split
  · exact sparing_ok _
  · refine blameless_fetchOne fun counts trouble htrouble => ?_
    cases trouble with
    | none => exact sparing_ok _
    | some trouble => exact (blameless_settleBeforeReset (htrouble _ rfl)).orFail fun _ => sparing_ok _

theorem blameless_settle {trouble : Trouble} (h : BlamelessTrouble detail trouble) :
    Blameless detail (settle trouble) := by
  unfold settle
  split
  · refine (blameless_reset.orElse fun e he => ?_).orFail fun _ => blameless_giveError h
    split
    · exact sparing_ok ()
    · exact sparing_throw he
  · exact (blameless_task _).orFail fun _ => blameless_giveError h
  · exact (blameless_task _).orFail fun _ => blameless_giveError h

theorem blameless_fetchMessage : Blameless detail fetchMessage := by
  unfold fetchMessage
  refine blameless_fetchOne fun counts trouble htrouble => ?_
  cases trouble with
  | none => exact sparing_ok _
  | some trouble => exact (blameless_settle (htrouble _ rfl)).orFail fun _ => sparing_ok _

theorem blameless_fetchAll : Blameless detail fetchAll := by
  unfold fetchAll
  refine sparing_iterateOrFail _ fun counts => (blameless_task _).orFail fun quiet => ?_
  split
  · exact sparing_ok _
  · exact blameless_fetchMessage.orFail fun _ => sparing_ok _

theorem route_ne (v : Version) (context : Entries Value) (bookmarks : List String) (database user : Option String) :
    Protocol.route v context bookmarks database user ≠ .error (.routing detail) := by
  have huser : Protocol.checkUser v user ≠ .error (.routing detail) := by
    cases user with
    | none => exact nofun
    | some user =>
      rw [Protocol.checkUser]
      split <;> exact nofun
  refine bind_ne_error huser fun _ => ?_
  split <;> exact nofun

theorem readRow_ne (row : Except PackStream.Error Routing.Row) : readRow row ≠ .error (.routing detail) := by
  cases row <;> exact nofun

theorem routeRow_ne (x : Option Exchange) : routeRow x ≠ .error (.routing detail) := by
  unfold routeRow
  split
  · next row _ =>
    cases Routing.Row.ofEntries row <;> exact nofun
  · exact nofun

theorem procedureRows_ne (run : Option Exchange) (records : List (List Value)) :
    procedureRows run records ≠ .error (.routing detail) := by
  unfold procedureRows
  induction records with
  | nil => exact nofun
  | cons values rest ih =>
    dsimp only at ih ⊢
    rw [List.mapM_cons]
    exact bind_ne_error (readRow_ne _) fun row => bind_ne_error ih fun rows => nofun

theorem blameless_route (context : Entries Value) (bookmarks : List String) (database user : Option String) :
    Blameless detail (route context bookmarks database user) := by
  unfold route
  refine (blameless_task _).orFail fun version => (sparing_of_eq (route_ne _ _ _ _ _)).orFail fun request => ?_
  cases request with
  | message r =>
    refine (blameless_attempt fun _ c => c.queue_ne _ _ _).orFail fun n => blameless_sendAll.orFail fun _ => ?_
    exact blameless_fetchAll.orFail fun _ =>
      blameless_attempt (f := fun _ c => (routeRow (c.exchange? n), c)) fun _ c => routeRow_ne _
  | procedure run pull =>
    refine (blameless_attempt fun _ c => c.queue_ne _ _ _).orFail fun first => ?_
    refine (blameless_attempt fun _ c => c.queue_ne _ _ _).orFail fun second => blameless_sendAll.orFail fun _ => ?_
    exact blameless_fetchAll.orFail fun _ => blameless_attempt fun _ c => procedureRows_ne _ _

end BoltClient.Connection
