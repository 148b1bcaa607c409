import BoltClient.Proofs.Pool.Attending
import BoltClient.Proofs.Routing.Serving

namespace BoltClient.Routing.Cluster

open Work
open Pool (Alone Attended EditsTables Grip Query)

variable {S : Type} {R : Surroundings Query S} {grip : S → Grip} {c : Cluster} {q : Inquiry} {s s' : S} {role : Role}
  {mode : AccessMode} {liveness : Option Duration}

def reaching (c : Cluster) (q : Inquiry) (liveness : Option Duration) (a : Address) : Pool.Task (Except Error Unit) :=
  (Pool.acquire c.opener a q.deadline liveness).run

/-- Tries a server. If it cannot be reached it is given up, and another is to be tried. -/
def tryAt (c : Cluster) (q : Inquiry) (liveness : Option Duration) (a : Address) : Pool.Attempt (Unit ⊕ Unit) :=
  tryCatch
    (do
      Pool.acquire c.opener a q.deadline liveness
      return .inr ())
    fun e => do
      if e.isUnavailable then
        deactivate a
        return .inl ()
      else throw e

def tryOne (c : Cluster) (mode : AccessMode) (q : Inquiry) (liveness : Option Duration) :
    Pool.Attempt (Unit ⊕ Unit) := do
  let choice ← Pool.ask .draw
  match ← Pool.move (.select (roleFor mode) q.database choice) with
  | none => throw (noServer mode)
  | some a => c.tryAt q liveness a

def lend (c : Cluster) (mode : AccessMode) (q : Inquiry) (liveness : Option Duration) : Pool.Attempt Unit :=
  Work.iterateOrFail (fun () => c.tryOne mode q liveness) ()

theorem acquire_eq (c : Cluster) (mode : AccessMode) (q : Inquiry) (liveness : Option Duration) :
    c.acquire mode q liveness = (do
      let _ ← c.ensureFresh (roleFor mode) q
      c.lend mode q liveness) := rfl

/-- A server that is tried, and what comes of it. -/
abbrev Trial (S : Type) := Turn Address (Except Error Unit) S

def Lost (result : Except Error Unit) : Prop := ∃ e, result = .error e ∧ e.isUnavailable = true

/-- What trying a server comes to. Either that is the result, or the server is gone and has been taken out of the
tables. -/
def Comes (grip : S → Grip) (x : Trial S) (s' : S) (r : Except Error (Unit ⊕ Unit)) : Prop :=
  ¬Lost x.result ∧ r = x.result.map .inr ∧ s' = x.after ∨
    Lost x.result ∧ r = .ok (.inl ()) ∧ (grip s').pool.Avoids x.subject

theorem Comes.over {x : Trial S} {r : Except Error Unit} (h : Comes grip x s' (r.map .inr)) :
    ¬Lost x.result ∧ r = x.result ∧ s' = x.after := by
  obtain ⟨hthere, hr, hs'⟩ | ⟨_, hr, _⟩ := h
  · refine ⟨hthere, ?_, hs'⟩
    generalize x.result = result at hr
    cases r <;> cases result <;> simp_all [Except.map]
  · cases r <;> cases hr

theorem Comes.again {x : Trial S} {y : Unit} (h : Comes grip x s' (.ok (.inl y))) :
    Lost x.result ∧ (grip s').pool.Avoids x.subject := by
  obtain ⟨_, hr, _⟩ | ⟨hlost, _, hgone⟩ := h
  · generalize x.result = result at hr
    cases result <;> cases hr
  · exact ⟨hlost, hgone⟩

theorem tryAt_run (hR : Alone R grip) {a : Address} {r : Except Error (Unit ⊕ Unit)} (hs : (grip s).pool.Balanced)
    (hrun : Runs R (c.tryAt q liveness a).run s r s') : ∃ x : Trial S, x.subject = a ∧ x.before = s ∧
      Course R Query.Beside (c.reaching q liveness) (.done r, s') ((c.tryAt q liveness a).run, s) [x] ∧
      EditsTables (grip s).pool (grip s').pool ∧ Comes grip x s' r := by
  unfold tryAt at hrun ⊢
  have hone {result : Except Error Unit} {u : S} (hreach : Runs R (c.reaching q liveness a) s result u) :
      Course R Query.Beside (c.reaching q liveness) (.done result, u)
        ((Pool.acquire c.opener a q.deadline liveness).run, s) [⟨a, s, result, u⟩] := .one hreach
  have hplain := Pool.acquire_plain c.opener a q.deadline liveness
  obtain ⟨_, rfl, hreached⟩ | ⟨e, u, hfailed, hhandler⟩ := hrun.of_orElse
  · obtain ⟨_, u, hreach, hend⟩ | ⟨_, heq, _⟩ := hreached.of_orFail
    · obtain ⟨heq, rfl⟩ := hend.of_done
      cases heq
      refine ⟨⟨a, s, .ok (), s'⟩, rfl, rfl, ?_, hR.edits hplain hreach, .inl ⟨?_, rfl, rfl⟩⟩
      · exact .succeeded ((hone hreach).orFail (.rest .refl))
      · rintro ⟨_, heq, _⟩
        cases heq
    · cases heq
  · obtain ⟨_, _, _, hend⟩ | ⟨_, heq, hreach⟩ := hfailed.of_orFail
    · cases hend.of_done.1
    · cases heq
      have hedits := hR.edits hplain hreach
      refine ⟨⟨a, s, .error e, u⟩, rfl, rfl, ?_, ?_⟩
      · refine .caught (hone hreach).failed (.rest (.only ?_ hhandler))
        split
        · exact .orFail (.map (deactivate_beside a)) fun _ => asks_ok _
        · exact asks_throw e
      · split at hhandler
        · next hgone =>
          obtain ⟨_, v, hgivenUp, hend⟩ := hhandler.of_lift
          obtain ⟨rfl, rfl⟩ := hend.of_done
          refine ⟨hedits.trans (hR.edits (c.plain_basics.giveUp a) hgivenUp), .inr ⟨⟨e, rfl, hgone⟩, rfl, ?_⟩⟩
          exact avoids_of_giveUp hR (hedits.balanced hs).proper hgivenUp
        · next hthere =>
          obtain ⟨rfl, rfl⟩ := hhandler.of_done
          refine ⟨hedits, .inl ⟨?_, rfl, rfl⟩⟩
          rintro ⟨_, heq, hgone⟩
          cases heq
          exact hthere hgone

/-- A round selects a server with the fewest connections in use and tries it. -/
theorem tryOne_run (hR : Alone R grip) {r : Except Error (Unit ⊕ Unit)} (hs : (grip s).pool.Balanced)
    (hrun : Runs R (c.tryOne mode q liveness).run s r s') :
    (r = .error (noServer mode) ∧ (grip s').pool.serving (roleFor mode) q.database = [] ∧
      Course R Query.Beside (c.reaching q liveness) (.done r, s') ((c.tryOne mode q liveness).run, s) [] ∧
      EditsTables (grip s).pool (grip s').pool) ∨
    ∃ x : Trial S, Course R Query.Beside (c.reaching q liveness) (.done r, s') ((c.tryOne mode q liveness).run, s) [x] ∧
      (grip x.before).pool.Least (roleFor mode) q.database x.subject ∧
      EditsTables (grip s).pool (grip x.before).pool ∧ EditsTables (grip s).pool (grip s').pool ∧
      Comes grip x s' r := by
  unfold tryOne at hrun ⊢
  obtain ⟨choice, u, hdraw, hrest⟩ := hrun.of_lift
  obtain ⟨found, v, hselect, htry⟩ := hrest.of_lift
  have hdrawn : EditsTables (grip s).pool (grip u).pool :=
    Pool.editsTables_answer (q := .draw) trivial (hR hdraw.of_query)
  have hedits : EditsTables (grip s).pool (grip v).pool :=
    hdrawn.trans (Pool.editsTables_answer (q := .move (.select (roleFor mode) q.database choice)) trivial
      (hR hselect.of_query))
  obtain ⟨hnobody, hsomebody⟩ := (hdrawn.balanced hs).selected (hR hselect.of_query)
  have hselecting {turns : List (Trial S)} {f : Option Address → Pool.Attempt (Unit ⊕ Unit)}
      (h : Course R Query.Beside (c.reaching q liveness) (.done r, s') ((f found).run, v) turns) :
      Course R Query.Beside (c.reaching q liveness) (.done r, s')
        ((do
          let choice ← Pool.ask .draw
          f (← Pool.move (.select (roleFor mode) q.database choice)) : Pool.Attempt (Unit ⊕ Unit)).run, s) turns :=
    .lifted (.gap (asks_query trivial) hdraw) (.lifted (.gap (asks_query trivial) hselect) h)
  cases found with
  | none =>
    obtain ⟨rfl, rfl⟩ := htry.of_done
    exact .inl ⟨rfl, hnobody rfl, hselecting (.rest .refl), hedits⟩
  | some a =>
    obtain ⟨x, rfl, rfl, hcourse, htried, hcomes⟩ := tryAt_run hR (hedits.balanced hs) htry
    exact .inr ⟨x, hselecting hcourse, hsomebody _ rfl, hedits, hedits.trans htried, hcomes⟩

/-- How the search for a server ends. Either every server that was tried is gone and none is left, or the last one is
not gone; what has come of trying it is reported, and nothing is done any more. -/
inductive Settled (grip : S → Grip) (role : Role) (q : Inquiry) (other : Error) :
    S → List (Trial S) → Except Error Unit → Prop where
  | nobody {t : S} {tries : List (Trial S)} (hlost : ∀ x ∈ tries, Lost x.result)
      (hnone : (grip t).pool.serving role q.database = []) : Settled grip role q other t tries (.error other)
  | last (tries : List (Trial S)) {x : Trial S} (hlost : ∀ y ∈ tries, Lost y.result) (hlast : ¬Lost x.result) :
      Settled grip role q other x.after (tries ++ [x]) x.result

/-- What a search for a server is like. Nothing but what takes servers out befalls the tables. -/
structure Tried (grip : S → Grip) (mode : AccessMode) (q : Inquiry) (s s' : S) (tries : List (Trial S))
    (r : Except Error Unit) : Prop where
  least : ∀ x ∈ tries, (grip x.before).pool.Least (roleFor mode) q.database x.subject
  during : ∀ x ∈ tries, EditsTables (grip s).pool (grip x.before).pool
  edits : EditsTables (grip s).pool (grip s').pool
  later : tries.Pairwise fun x y => (grip y.before).pool.Avoids x.subject
  evicted : ∀ x ∈ tries, Lost x.result → (grip s').pool.Avoids x.subject
  settled : Settled grip (roleFor mode) q (noServer mode) s' tries r

variable {tries : List (Trial S)} {r : Except Error Unit} {x : Trial S} {u : S}

/-- Whoever is gone is tried first, and then the others. -/
theorem Settled.after {other : Error} (hx : Lost x.result) (h : Settled grip role q other s tries r) :
    Settled grip role q other s (x :: tries) r := by
  have hboth {rest : List (Trial S)} (hrest : ∀ y ∈ rest, Lost y.result) : ∀ y ∈ x :: rest, Lost y.result :=
    fun y hy => (List.mem_cons.mp hy).elim (fun heq => heq ▸ hx) (hrest y)
  cases h with
  | nobody hlost hnone => exact .nobody (hboth hlost) hnone
  | last rest hlost hlast =>
    rw [← List.cons_append]
    exact .last (x :: rest) (hboth hlost) hlast

theorem Tried.next (hleast : (grip x.before).pool.Least (roleFor mode) q.database x.subject)
    (hbefore : EditsTables (grip s).pool (grip x.before).pool) (hedits : EditsTables (grip s).pool (grip u).pool)
    (hlost : Lost x.result) (hgone : (grip u).pool.Avoids x.subject) (h : Tried grip mode q u s' tries r) :
    Tried grip mode q s s' (x :: tries) r where
  least := List.forall_mem_cons.mpr ⟨hleast, h.least⟩
  during := List.forall_mem_cons.mpr ⟨hbefore, fun y hy => hedits.trans (h.during y hy)⟩
  edits := hedits.trans h.edits
  later := List.pairwise_cons.mpr ⟨fun y hy => (h.during y hy).avoids hgone, h.later⟩
  evicted := List.forall_mem_cons.mpr ⟨fun _ => h.edits.avoids hgone, h.evicted⟩
  settled := h.settled.after hlost

/-- Nobody is tried again, since whoever has been tried is in no table any more. -/
theorem Tried.once (h : Tried grip mode q s s' tries r) : (tries.map (·.subject)).Nodup := by
  refine List.pairwise_map.mpr (h.later.imp_of_mem fun {x y} _ hy hgone heq => ?_)
  rw [heq] at hgone
  exact hgone.serving (h.least y hy).1

/-- Where nobody is found, whoever was tried is gone and none is left. -/
theorem Settled.nobody_iff (h : Settled grip role q (noServer mode) s tries r) :
    r = .error (noServer mode) ↔
      (∀ x ∈ tries, Lost x.result) ∧ (grip s).pool.serving role q.database = [] := by
  cases h with
  | nobody hlost hnone => exact iff_of_true rfl ⟨hlost, hnone⟩
  | @last first x _ hlast =>
    refine iff_of_false (fun heq => hlast ⟨noServer mode, heq, rfl⟩) fun hall => hlast ?_
    exact hall.1 x List.mem_concat_self

theorem lend_run (hR : Alone R grip) (hs : (grip s).pool.Balanced)
    (hrun : Runs R (c.lend mode q liveness).run s r s') : ∃ tries : List (Trial S),
      Course R Query.Beside (c.reaching q liveness) (.done r, s') ((c.lend mode q liveness).run, s) tries ∧
      Tried grip mode q s s' tries r := by
  -- The last round settles the search; each one before it has made a server go.
  refine Runs.roundsOrFail (motive := fun _ u => (grip u).pool.Balanced → ∃ tries : List (Trial S),
    Course R Query.Beside (c.reaching q liveness) (.done r, s') ((c.lend mode q liveness).run, u) tries ∧
      Tried grip mode q u s' tries r) hrun (fun _ u hround hu => ?_) (fun _ _ u v hround hrest hu => ?_) hs
  · obtain ⟨hr, hnone, hcourse, hedits⟩ | ⟨x, hcourse, hleast, hbefore, hedits, hcomes⟩ := tryOne_run hR hu hround
    · have heq : r = .error (noServer mode) := by
        cases r with
        | error e => exact congrArg _ (Except.error.inj hr)
        | ok => cases hr
      subst heq
      refine ⟨[], .lastRound hcourse, ?_, ?_, hedits, .nil, ?_, .nobody (List.forall_mem_nil _) hnone⟩
      · exact List.forall_mem_nil _
      · exact List.forall_mem_nil _
      · exact List.forall_mem_nil _
    · obtain ⟨hthere, rfl, rfl⟩ := hcomes.over
      refine ⟨[x], .lastRound hcourse, by simpa using hleast, by simpa using hbefore, hedits, ?_, ?_, ?_⟩
      · exact List.pairwise_singleton _ _
      · intro y hy hlost
        obtain rfl := List.mem_singleton.mp hy
        exact absurd hlost hthere
      · exact .last [] (List.forall_mem_nil _) hthere
  · obtain ⟨hr, _⟩ | ⟨x, hcourse, hleast, hbefore, hedits, hcomes⟩ := tryOne_run hR hu hround
    · cases hr
    · obtain ⟨hlost, hgone⟩ := hcomes.again
      obtain ⟨tries, hmore, htried⟩ := hrest (hedits.balanced hu)
      have hboth := hcourse.round (x := ()) hmore
      exact ⟨x :: tries, hboth, .next hleast hbefore hedits hlost hgone htried⟩

section

variable (hR : Attended R grip)

include hR

theorem ends_tryOne (htrial : ∀ a v, (c.reaching q liveness a).Ends R (fun _ _ => True) v) :
    (c.tryOne mode q liveness).run.Ends R (fun _ _ => True) s := by
  have hdraw : (Pool.ask .draw : Pool.Task Nat).Ends R (fun _ _ => True) s :=
    .ask (hR.ready (q := .draw) (b := 0) rfl) fun _ _ _ => .done trivial
  have hmove {β : Type} (m : Pool.Move β) (u : S) : (Pool.move m : Pool.Task β).Ends R (fun _ _ => True) u :=
    Pool.ends_move hR fun _ _ _ => trivial
  unfold tryOne
  refine Ends.orFail (Ends.map (hdraw.mono fun choice u _ => ?_))
  refine Ends.orFail (Ends.map ((hmove _ u).mono fun found v _ => ?_))
  cases found with
  | none => exact .done trivial
  | some a =>
    refine Ends.orElse (Ends.orFail ((htrial a v).mono fun result w _ => ?_))
    cases result with
    | ok => exact .done trivial
    | error e =>
      dsimp only
      split
      · refine Ends.orFail (Ends.map (Ends.andThen ((hmove _ w).mono fun _ x _ => ?_)))
        exact (Pool.ends_deactivate hR a).mono fun _ _ _ => .done trivial
      · exact .done trivial

/-- With every round that does not settle the search there is a server less. -/
theorem ends_lend (htrial : ∀ a v, (c.reaching q liveness a).Ends R (fun _ _ => True) v)
    (hs : (grip s).pool.Balanced) : (c.lend mode q liveness).run.Ends R (fun _ _ => True) s := by
  refine ends_iterateOrFail (fun _ u => (grip u).pool.Balanced)
    (fun _ u => ((grip u).pool.serving (roleFor mode) q.database).length) hs fun _ u hu => ?_
  refine (ends_tryOne hR htrial).reached.mono fun r v ⟨_, hround⟩ => ?_
  match r with
  | .ok (.inr _) | .error _ => exact trivial
  | .ok (.inl _) =>
    obtain ⟨hr, _⟩ | ⟨x, _, hleast, hbefore, hedits, hcomes⟩ := tryOne_run hR.alone hu hround
    · cases hr
    · obtain ⟨_, hgone⟩ := hcomes.again
      refine ⟨hedits.balanced hu, ?_⟩
      have hfewer := hedits.serving hu (roleFor mode) q.database
      refine lt_of_le_of_ne hfewer.length_le fun hlength => ?_
      have hx : x.subject ∈ (grip u).pool.serving (roleFor mode) q.database := (hbefore.serving hu _ _).subset hleast.1
      rw [← hfewer.eq_of_length hlength] at hx
      exact hgone.serving hx

end

/-- Once the tables are known to be fresh, servers are tried one after the other, as long as nobody else has a hand in
the pool. This comes to an end if each try does. Whoever is tried has the fewest connections in use among the servers
of the role that are left, and nobody is tried twice. Whoever cannot be reached is in no table any more; if anything
else comes of a try, that is reported at once. That there is no server is reported if and only if all those that were
tried are gone and none is left. -/
theorem acquire_tries_least (c : Cluster) (mode : AccessMode) (q : Inquiry) (liveness : Option Duration)
    (hR : Attended R grip) (d : Directory) (renewed : Bool) (hd : (grip s).pool.directory = some d)
    (hproper : d.Proper) (hpolicy : d.selector.policy = .leastConnected)
    (hfresh : Runs R (c.ensureFresh (roleFor mode) q).run s (.ok renewed) u) :
    c.acquire mode q liveness = (do
      let _ ← c.ensureFresh (roleFor mode) q
      c.lend mode q liveness) ∧
    ((∀ a v, (c.reaching q liveness a).Ends R (fun _ _ => True) v) →
      (c.lend mode q liveness).run.Ends R (fun _ _ => True) u) ∧
    ∀ r t, Runs R (c.lend mode q liveness).run u r t → ∃ tries : List (Trial S),
      Course R Query.Beside (c.reaching q liveness) (.done r, t) ((c.lend mode q liveness).run, u) tries ∧
      (∀ x ∈ tries, (grip x.before).pool.Least (roleFor mode) q.database x.subject) ∧
      (tries.map (·.subject)).Nodup ∧
      (tries.Pairwise fun x y => (grip y.before).pool.Avoids x.subject) ∧
      (∀ x ∈ tries, Lost x.result → (grip t).pool.Avoids x.subject) ∧
      Settled grip (roleFor mode) q (noServer mode) t tries r ∧
      (r = .error (noServer mode) ↔
        (∀ x ∈ tries, Lost x.result) ∧ (grip t).pool.serving (roleFor mode) q.database = []) := by
  have hu : (grip u).pool.Balanced := balanced_of_ensureFresh hR.alone ⟨d, hd, hproper, hpolicy⟩ hfresh
  refine ⟨c.acquire_eq mode q liveness, fun htrial => ends_lend hR htrial hu, fun r t hrun => ?_⟩
  obtain ⟨tries, hcourse, htried⟩ := lend_run hR.alone hu hrun
  exact ⟨tries, hcourse, htried.least, htried.once, htried.later, htried.evicted, htried.settled,
    htried.settled.nobody_iff⟩

theorem attended_surroundings : Attended Grip.surroundings id where
  alone hb := hb
  ready {_ _ _ b g} h := ⟨b, g, h⟩

theorem twofold_fresh : Runs Grip.surroundings (halfGone.ensureFresh .write wantedInquiry).run
    ⟨{ directory := some twofold }, []⟩ (.ok false) ⟨{ directory := some twofold }, []⟩ := by
  refine .head (.answer (b := ()) ⟨rfl, rfl⟩) ?_
  refine .head (.answer (b := true) ⟨.start, rfl⟩) ?_
  exact .head (.answer (b := ()) ⟨.start, rfl⟩) .refl

theorem gone_is_tried : Leads Grip.surroundings
    ((halfGone.lend .write wantedInquiry none).run, ⟨{ directory := some twofold }, []⟩)
    ((halfGone.lend .write wantedInquiry none).run, ⟨withoutGone, []⟩) := by
  refine .head .round ?_
  refine .head (.answer (b := 0) rfl) ?_
  refine .head (.answer (b := some gone) (t := ⟨{ directory := some twofold }, []⟩) ⟨.start, rfl⟩) ?_
  refine Relation.ReflTransGen.trans ((((Leads.bind gone_refuses _).bind _).bind _).bind _) ?_
  exact (((Leads.bind gone_is_given_up _).bind _).bind _).bind _

theorem there_is_lent : Runs Grip.surroundings (halfGone.lend .write wantedInquiry none).run
    ⟨withoutGone, []⟩ (.ok ()) ⟨thereLent, [.borrowed ⟨toThere, 0⟩]⟩ := by
  refine .head .round ?_
  refine .head (.answer (b := 0) rfl) ?_
  refine .head (.answer (b := some there) (t := ⟨withoutGone, []⟩) ⟨.start, rfl⟩) ?_
  exact (((Leads.bind there_lends _).bind _).bind _).bind _

theorem acquire_tries_least_twofold : ∃ tries : List (Trial Grip),
    let s : Grip := ⟨{ directory := some twofold }, []⟩
    let t : Grip := ⟨thereLent, [.borrowed ⟨toThere, 0⟩]⟩
    Runs Grip.surroundings (halfGone.ensureFresh .write wantedInquiry).run s (.ok false) s ∧
    Runs Grip.surroundings (halfGone.lend .write wantedInquiry none).run s (.ok ()) t ∧
    s.pool.serving .write (some "d") = [gone, there] ∧ t.pool.serving .write (some "d") = [there] ∧
    Course Grip.surroundings Query.Beside (halfGone.reaching wantedInquiry none) (.done (.ok ()), t)
      ((halfGone.lend .write wantedInquiry none).run, s) tries ∧
    (∀ x ∈ tries, x.before.pool.Least .write (some "d") x.subject) ∧ (tries.map (·.subject)).Nodup ∧
    Settled id .write wantedInquiry (noServer .write) t tries (.ok ()) := by
  have hrun := gone_is_tried.trans there_is_lent
  obtain ⟨_, _, htries⟩ := acquire_tries_least halfGone .write wantedInquiry none attended_surroundings twofold false
    rfl twofold_proper rfl twofold_fresh
  obtain ⟨tries, hcourse, hleast, honce, _, _, hsettled, _⟩ := htries _ _ hrun
  exact ⟨tries, twofold_fresh, hrun, rfl, rfl, hcourse, hleast, honce, hsettled⟩

/-- A closed pool in the hands of one piece of work. It is never open again. -/
def shutting : Surroundings Query { g : Grip // g.pool.closed = true } where
  Answers s q b t := s.1.Answers q b t.1
  Allows _ _ := True

theorem attended_shutting : Attended shutting Subtype.val where
  alone hb := hb
  ready {_ s _ b g} h := ⟨b, ⟨g, (Grip.change_of_answers h).closed s.2⟩, h⟩

theorem lost_shut (a : Address) (s : { g : Grip // g.pool.closed = true }) :
    (c.reaching q liveness a).Ends shutting (fun result _ => Lost result) s := by
  refine Ends.iterateOrFail (Ends.orFail (Ends.map (Pool.ends_move attended_shutting fun now t _ => ?_)))
  have hclosed : (Pool.Move.enter.apply now s.1).1 = none := if_pos s.2
  rw [hclosed]
  exact .done ⟨Pool.closedError, rfl, rfl⟩

/-- One server after the other is taken out, until nobody is left. -/
theorem ends_lend_shut {s : { g : Grip // g.pool.closed = true }} (hs : s.1.pool.Balanced) :
    (c.lend mode q liveness).run.Ends shutting
      (fun r t => r = .error (noServer mode) ∧ t.1.pool.serving (roleFor mode) q.database = []) s := by
  have hends : (c.lend mode q liveness).run.Ends shutting (fun _ _ => True) s :=
    ends_lend attended_shutting (fun a v => (lost_shut a v).mono fun _ _ _ => trivial) hs
  refine hends.reached.mono fun r t ⟨_, hrun⟩ => ?_
  obtain ⟨tries, hcourse, htried⟩ := lend_run attended_shutting.alone hs hrun
  cases htried.settled with
  | nobody _ hnone => exact ⟨rfl, hnone⟩
  | @last first x _ hthere =>
    have hreach := hcourse.runs List.mem_concat_self
    exact absurd ((lost_shut x.subject x.before).of_done hreach) hthere

end BoltClient.Routing.Cluster
