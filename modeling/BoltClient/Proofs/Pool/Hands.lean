import BoltClient.Proofs.Pool.Change
import BoltClient.Proofs.Pool.Composing
import BoltClient.Proofs.Pool.Grip

namespace BoltClient.Pool

open Work
open Stage (World)

variable {α : Type} {p : Pool} {g g' : Grip} {held held' hs : List Holding}

def Query.Suits (held : List Holding) : {β : Type} → Query β → Prop
  | _, .move m => m.Suits held
  | _, .edit f => ∀ now c, (f now c).2.address = c.address
  | _, _ => True

def Query.Tame {β : Type} (q : Query β) : Prop := ∀ held, q.Suits held

/-- A connection that waits in the slot of an address is a connection to it. -/
theorem Sound.address_of_takeIdle {q : Pool} {a : Address} {m : Member} (h : Sound p hs)
    (htake : p.takeIdle a = some (m, q)) :
    m.connection.address = a := by
  obtain ⟨rest, hidle, _, _⟩ := mem_of_takeIdle htake
  obtain ⟨s, hslot, hidle⟩ := Option.map_eq_some_iff.mp hidle
  have hcovers := h.covers a
  rw [hslot] at hcovers
  refine hcovers.2.2.2 m ?_
  rw [hidle]
  exact List.mem_cons_self

/-- A connection that keeps its address counts as it did. -/
theorem counts_of_editTop {f : Connection → α × Connection} {b : α}
    (hf : ∀ c, (f c).2.address = c.address) (hedit : World.editTop f held = some (b, held'))
    (hs : List Holding) (a : Address) :
    outOf (held' ++ hs) a = outOf (held ++ hs) a ∧ takenOf (held' ++ hs) a = takenOf (held ++ hs) a := by
  cases held with
  | nil => cases hedit
  | cons x held =>
    cases x with
    | borrowed m | parting m =>
      cases hedit
      simp only [List.cons_append, outOf_cons, takenOf_cons, Holding.isOut, hf]
      exact ⟨rfl, rfl⟩
    | loose m =>
      cases hedit
      exact ⟨rfl, rfl⟩
    | wire | place | turn => cases hedit

theorem Sound.edit {f : Connection → α × Connection} {b : α} (hf : ∀ c, (f c).2.address = c.address)
    (hedit : World.editTop f held = some (b, held')) (h : Sound p (held ++ hs)) :
    Sound p (held' ++ hs) :=
  h.mono (fun a => Nat.le_of_eq (counts_of_editTop hf hedit hs a).1)
    fun a => Nat.le_of_eq (counts_of_editTop hf hedit hs a).2

theorem Grip.grasp_cases (held : List Holding) (t : Transfer α) (r : Stage.Reply Transfer α) :
    World.grasp held t r = held ∨ ∃ link, World.grasp held t r = .wire link :: held := by
  cases t with
  | dial a =>
    match r with
    | .ready (.ok link) => exact .inr ⟨link, rfl⟩
    | .ready (.error e) | .wait _ => exact .inl rfl
  | connect e d =>
    match r with
    | .ready (.linked link) => exact .inr ⟨link, rfl⟩
    | .ready (.failed _) | .ready .late | .wait _ => exact .inl rfl
  | now | resolve | settle | read | write | shutdown => exact .inl rfl

theorem Sound.grasp (t : Transfer α) (r : Stage.Reply Transfer α) (h : Sound p (held ++ hs)) :
    Sound p (World.grasp held t r ++ hs) := by
  rcases Grip.grasp_cases held t r with hsame | ⟨link, hmore⟩
  · rw [hsame]
    exact h
  · rw [hmore]
    exact Sound.spare h rfl

/-- No question that suits lets the counts fall behind, however it is answered. -/
theorem Sound.answer {β : Type} {q : Query β} {b : β} (hq : q.Suits g.held)
    (hb : g.Answers q b g') (h : Sound g.pool (g.held ++ hs)) : Sound g'.pool (g'.held ++ hs) := by
  cases q with
  | move m =>
    obtain ⟨now, happly⟩ := hb
    have hmove := h.move hq now
    rw [happly] at hmove
    exact hmove
  | edit f =>
    obtain ⟨now, held', hedit, rfl⟩ := hb
    exact h.edit (fun c => hq now c) hedit
  | transfer t =>
    obtain rfl : g' = _ := hb
    exact h.grasp t _
  | waitForChange =>
    obtain ⟨_, rfl⟩ := hb
    exact h
  | waitForTurn =>
    obtain ⟨_, rfl⟩ := hb
    exact Sound.spare (h.congr rfl rfl) rfl
  | draw =>
    obtain rfl : g' = _ := hb
    exact h

/-- What becomes of the pool with an answer. -/
theorem Grip.change_of_answers {β : Type} {q : Query β} {b : β} (hb : g.Answers q b g') :
    Change g.pool g'.pool := by
  cases q with
  | move m =>
    obtain ⟨now, happly⟩ := hb
    have hchange := change_move now g m
    rw [happly] at hchange
    exact hchange
  | edit f =>
    obtain ⟨_, _, _, rfl⟩ := hb
    exact .slots rfl rfl rfl
  | transfer | draw =>
    obtain rfl : g' = _ := hb
    exact .slots rfl rfl rfl
  | waitForChange | waitForTurn =>
    obtain ⟨_, rfl⟩ := hb
    exact .slots rfl rfl rfl

def Grip.surroundings : Surroundings Query Grip where
  Answers g q b g' := g.Answers q b g'
  Allows g q := q.Suits g.held

/-- Whatever is answered is answered by a pool that nobody else has a hand in. -/
def Alone {S : Type} (R : Surroundings Query S) (grip : S → Grip) : Prop :=
  ∀ {β : Type} {s t : S} {q : Query β} {b : β}, R.Answers s q b t → (grip s).Answers q b (grip t)

/-- What work holds, among all that others may do with the pool between its questions. -/
def hands : Surroundings Query (List Holding) where
  Answers held q b held' := ∃ p p', Grip.Answers ⟨p, held⟩ q b ⟨p', held'⟩
  Allows held q := q.Suits held

theorem safe_of_tame {w : Task α} (h : w.Asks Query.Tame) (held : List Holding) :
    w.Safe hands held fun _ _ => True :=
  h.safe (fun _ => True) (fun _ hq => hq _) (fun _ _ _ => trivial) trivial

theorem asks_onTop {t : Connection.Task α} (h : t.Asks Connection.Query.Stays) :
    (onTop t : Task α).Asks Query.Tame := by
  refine h.via fun {β} {q} hq held => ?_
  cases q with
  | edit f => exact hq
  | transfer t => exact trivial

theorem tame_basics : Basics fun {α : Type} (w : Task α) => w.Asks Query.Tame :=
  asks_basics asks_onTop (fun _ _ => trivial) (fun _ => trivial) (fun _ => trivial) fun _ _ => trivial

theorem reuse_tame (a : Address) (deadline : Deadline) (liveness : Option Duration) :
    (reuse a deadline liveness).Asks Query.Tame :=
  tame_basics.reuse a deadline liveness (asks_move fun _ => trivial) (asks_move fun _ => trivial)

theorem Grip.beneath_grasp (held : List Holding) (t : Transfer α) (r : Stage.Reply Transfer α) :
    beneath (World.grasp held t r) = beneath held := by
  rcases Grip.grasp_cases held t r with hsame | ⟨link, hmore⟩
  · rw [hsame]
  · rw [hmore]
    rfl

theorem Grip.beneath_of_transfer {t : Transfer α} {b : α} (hb : g.Answers (.transfer t) b g') :
    beneath g'.held = beneath g.held := by
  obtain rfl : g' = _ := hb
  exact Grip.beneath_grasp g.held t _

section

variable {S : Type} {R : Surroundings Query S} {post : Except Error Unit → S → Prop} {s : S}
variable {opener : Opener} {a : Address} {deadline : Deadline} {liveness : Option Duration}

/-- What the network does while a connection is being opened, it does among any surroundings. -/
theorem safe_opening (J : S → Prop) {post : Except Error Connection → Prop}
    (hallows : ∀ {β : Type} (q : Transfer β) t, J t → R.Allows t (.transfer q))
    (hkeeps : ∀ {β : Type} {q : Transfer β} {t b u}, J t → R.Answers t (.transfer q) b u → J u)
    (h : (opener a deadline).run.Safe Opening.anything () fun r _ => post r) (hs : J s) :
    ((opener a deadline).run.via Query.transfer).Safe R s fun r t => J t ∧ post r := by
  have hvia : ((opener a deadline).run.via Query.transfer).Safe R s fun r t => ∃ _ : Unit, J t ∧ post r :=
    Asks.safeVia (p := fun _ => True) (fun _ t => J t) (fun ht _ => hallows _ _ ht)
      (fun ht _ hb => ⟨(), trivial, hkeeps ht hb⟩) (asks_of_all (fun _ => trivial) _) h hs
  refine hvia.mono fun r t ht => ?_
  obtain ⟨_, hkept, hpost⟩ := ht
  exact ⟨hkept, hpost⟩

theorem safe_openReserved (J : S → Prop) (herror : ∀ e t, J t → post (.error e) t)
    (hdeactivate : ∀ t, J t → (deactivate a).Safe R t fun _ u => J u)
    (hopened : ((opener a deadline).run.via Query.transfer).Safe R s fun r t =>
      match r with
      | .ok c => (move (.fulfil c) : Task Unit).Safe R t fun _ u => post (.ok ()) u
      | .error _ => (move .letGo : Task Unit).Safe R t fun _ u => J u) :
    (openReserved opener a deadline).run.Safe R s post := by
  unfold openReserved
  refine Safe.orElse (Safe.orFail (hopened.mono fun r t hr => ?_))
  cases r with
  | ok c => exact Safe.map hr
  | error e =>
    refine Safe.orFail (Safe.map (hr.mono fun _ u hu => ?_))
    dsimp only
    split
    · exact Safe.orFail (Safe.map ((hdeactivate u hu).mono fun _ v hv => herror _ v hv))
    · exact herror _ u hu

/-- A connection comes from the idle ones or is opened for a place; what holds in between may depend on the
changes that were seen. -/
theorem safe_acquire_seen (J : S → Prop) (L M N : Nat → S → Prop) (hs : J s)
    (herror : ∀ e t, J t → post (.error e) t)
    (henter : ∀ t, J t → (move .enter : Task (Option Nat)).Safe R t fun open? u =>
      match open? with
      | none => J u
      | some seen => L seen u)
    (hreuse : ∀ seen t, L seen t → (reuse a deadline liveness).Safe R t fun found u =>
      if found then post (.ok ()) u else M seen u)
    (hreserve : ∀ seen t, M seen t → (move (.reserve a) : Task Bool).Safe R t fun room u =>
      if room then (openReserved opener a deadline).run.Safe R u post else N seen u)
    (hwait : ∀ seen t, N seen t → (ask (.waitForChange seen deadline) : Task Bool).Safe R t fun _ u => J u) :
    (acquire opener a deadline liveness).run.Safe R s post := by
  unfold acquire
  refine safe_iterateOrFail (fun _ t => J t) hs fun _ s hs => ?_
  refine Safe.orFail (Safe.map ((henter s hs).mono fun open? t ht => ?_))
  cases open? with
  | none => exact herror _ t ht
  | some seen =>
    refine Safe.orFail (Safe.map ((hreuse seen t ht).mono fun found u hu => ?_))
    cases found with
    | true => exact hu
    | false =>
      refine Safe.orFail (Safe.map ((hreserve seen u hu).mono fun room v hv => ?_))
      cases room with
      | true =>
        refine Safe.orFail (Safe.mono hv fun r w hw => ?_)
        cases r with
        | ok _ => exact hw
        | error e => exact hw
      | false =>
        refine Safe.orFail (Safe.map ((hwait seen v hv).mono fun again w hw => ?_))
        cases again with
        | true => exact hw
        | false => exact herror _ w hw

/-- A connection comes from the idle ones or is opened for a place. -/
theorem safe_acquire (J : S → Prop) (hs : J s) (herror : ∀ e t, J t → post (.error e) t)
    (henter : ∀ t, J t → (move .enter : Task (Option Nat)).Safe R t fun _ u => J u)
    (hreuse : ∀ t, J t → (reuse a deadline liveness).Safe R t fun found u =>
      if found then post (.ok ()) u else J u)
    (hreserve : ∀ t, J t → (move (.reserve a) : Task Bool).Safe R t fun room u =>
      if room then (openReserved opener a deadline).run.Safe R u post else J u)
    (hwait : ∀ t seen, J t → (ask (.waitForChange seen deadline) : Task Bool).Safe R t fun _ u => J u) :
    (acquire opener a deadline liveness).run.Safe R s post := by
  have hlook (t : S) (ht : J t) : (move .enter : Task (Option Nat)).Safe R t fun open? u =>
      match open? with
      | none => J u
      | some _ => J u :=
    (henter t ht).mono fun open? u hu => by cases open? <;> exact hu
  exact safe_acquire_seen J (fun _ => J) (fun _ => J) (fun _ => J) hs herror hlook (fun _ => hreuse)
    (fun _ => hreserve) fun seen t => hwait t seen

end

/-- Once a place is held, the connection that is opened fits into it. -/
theorem openReserved_fits {opener : Opener} (hopener : Opening.Faithful opener) (a : Address)
    (deadline : Deadline) {generation : Nat} {rest : List Holding}
    (hplace : Grip.beneath held = .place a generation :: rest) :
    (openReserved opener a deadline).run.Safe hands held fun _ _ => True := by
  have hopened := safe_opening (R := hands) (fun held => Grip.beneath held = .place a generation :: rest)
    (fun _ _ _ => trivial) (fun hbeneath ⟨_, _, hb⟩ => (Grip.beneath_of_transfer hb).trans hbeneath)
    (hopener a deadline) hplace
  refine safe_openReserved (fun _ => True) (fun _ _ _ => trivial)
    (fun t _ => safe_of_tame (tame_basics.deactivate a) t) (hopened.mono fun r held' hr => ?_)
  obtain ⟨hbeneath, hc⟩ := hr
  cases r with
  | error e => exact safe_of_tame tame_basics.lettingGo held'
  | ok c =>
    refine ⟨fun b _ _ hb => ?_, fun _ _ _ => trivial⟩
    rw [hbeneath] at hb
    cases hb
    exact hc c rfl

/-- A place is held if there was one. -/
theorem Grip.held_of_reserve {a : Address} {now : Instant} {room : Bool}
    (h : (Move.reserve a).apply now g = (room, g')) :
    if room then ∃ generation, g'.held = .place a generation :: g.held else g'.held = g.held := by
  simp only [Move.apply] at h
  split at h
  · next generation _ _ =>
    cases h
    exact ⟨generation, rfl⟩
  · cases h
    rfl

theorem acquire_fits {opener : Opener} (hopener : Opening.Faithful opener) (a : Address)
    (deadline : Deadline) (liveness : Option Duration) (held : List Holding) :
    (acquire opener a deadline liveness).run.Safe hands held fun _ _ => True := by
  refine safe_acquire (fun _ => True) trivial (fun _ _ _ => trivial)
    (fun _ _ => ⟨trivial, fun _ _ _ => trivial⟩)
    (fun t _ => (safe_of_tame (reuse_tame a deadline liveness) t).mono fun found _ _ => ?_)
    (fun t _ => ⟨trivial, ?_⟩) fun _ _ _ => ⟨trivial, fun _ _ _ => trivial⟩
  · cases found <;> exact trivial
  · rintro room held' ⟨p, p', now, heq⟩
    have hplace := Grip.held_of_reserve heq
    cases room with
    | false => exact trivial
    | true =>
      obtain ⟨generation, rfl⟩ := hplace
      exact openReserved_fits hopener a deadline rfl

end BoltClient.Pool
