import BoltClient.Proofs.Pool.Returning
import BoltClient.Proofs.Routing.Thinning
import BoltClient.Proofs.Work.Ending

namespace BoltClient

namespace Routing

variable {d : Directory} {t : Table} {database key : Option String} {role : Role} {now later : Instant}

/-- When the tables whose time is long over have been thrown away, a database has a table that can be used for a
role. -/
def Directory.Fresh (d : Directory) (role : Role) (database : Option String) (now : Instant) : Prop :=
  ∃ t, (d.purge now).table? database = some t ∧ t.isFresh role now = true

theorem Directory.table?_store (d : Directory) (database : Option String) (t : Table) (now : Instant)
    (key : Option String) : (d.store database t now).table? key
      = if key = database then some ((d.table database now).update t now) else d.table? key := by
  unfold Directory.store
  rw [table?_modify, table?_ensure]
  by_cases hkey : key = database
  · simp [hkey]
  · simp [hkey]

/-- The table of a database lists, role by role, what another table lists. -/
def Directory.Holds (d : Directory) (database : Option String) (t : Table) : Prop :=
  ∃ stored, d.table? database = some stored ∧ ∀ role, stored.addresses role = t.addresses role

/-- A table counts for the database that it names and for the one that was asked for. -/
theorem Directory.holds_store (d : Directory) (requested : Option String) (t : Table) (now : Instant)
    (hkey : key = requested ∨ key = t.database) :
    ((if t.database = requested then d else d.store t.database t now).store requested t now).Holds key t := by
  unfold Directory.Holds
  rw [table?_store]
  split
  · exact ⟨_, rfl, Table.addresses_update _ t now⟩
  · next hother =>
    obtain rfl := hkey.resolve_left hother
    rw [if_neg hother, table?_store, if_pos rfl]
    exact ⟨_, rfl, Table.addresses_update _ t now⟩

/-- A table that has just been started lists no reader and no writer. -/
theorem Directory.not_isFresh_firstTable (hrole : role ≠ .route) :
    ((d.firstTable database now).isFresh role later) = false := by
  unfold Table.isFresh
  cases role with
  | route => exact absurd rfl hrole
  | read | write => simp [firstTable, Table.ofRouters, Table.ofServers, Table.addresses]

theorem Directory.table_ensure (d : Directory) (database : Option String) (now later : Instant) :
    (d.ensure database now).table database later = d.table database now := by
  rw [table, table?_ensure, if_pos rfl]
  rfl

theorem Directory.fresh_iff (hrole : role ≠ .route) : d.Fresh role database now ↔
    (((d.purge now).ensure database now).table database now).isFresh role now = true := by
  rw [table_ensure, table]
  unfold Directory.Fresh
  cases (d.purge now).table? database with
  | none => simp [not_isFresh_firstTable hrole]
  | some t => simp

/-- The routers are the same once the table is there. -/
theorem Directory.routers_ensure (d : Directory) (database : Option String) (now later : Instant) :
    (d.ensure database now).routers database later = d.routers database now := by
  unfold Directory.routers
  rw [table_ensure, firstRouter_ensure]

end Routing

namespace Pool

variable {p : Pool} {a : Address} {s : Slot}

/-- Nobody waits under an address that is given up, and nobody else begins to wait. -/
theorem idle_of_detach (hs : s ∈ (p.detach a).2.slots) (hidle : s.idle ≠ []) : s ∈ p.slots ∧ s.address ≠ a := by
  unfold detach at hs
  split at hs
  · next hnone =>
    have hother := List.find?_eq_none.mp hnone s hs
    exact ⟨hs, by simpa using hother⟩
  · split at hs
    · obtain ⟨hs, hother⟩ := List.mem_filter.mp hs
      exact ⟨hs, by simpa using hother⟩
    · obtain ⟨t, ht, rfl⟩ := List.mem_map.mp hs
      split at hidle
      · exact absurd rfl hidle
      · next hother =>
        rw [if_neg hother]
        exact ⟨ht, hother⟩

end Pool

namespace Routing.Cluster

open Work
open Pool (Grip Move Query post_of_runs)

variable {c : Cluster} {q : Inquiry} {g g' : Grip} {d : Directory} {held : List Holding}

theorem safe_askRouter (c : Cluster) (router : Address) (q : Inquiry) (hheld : g.held = held) :
    (c.askRouter router q).run.Safe Grip.free g fun _ g' => g'.held = held := by
  have hstays (deadline : Deadline) : (Connection.change fun x => { x with deadline := deadline } :
      Connection.Task Unit).Asks Connection.Query.Stays := Connection.asks_edit fun _ _ => rfl
  unfold askRouter
  refine Safe.orFail ((Pool.safe_acquireFree hheld).mono fun r g₁ hg₁ => ?_)
  cases r with
  | error e => exact hg₁
  | ok =>
    obtain ⟨_, hheld⟩ := hg₁
    refine Safe.orFail (Safe.map ((Pool.safe_onTopFree (hstays _) (.inl rfl) hheld).mono fun _ g₂ hg₂ => ?_))
    obtain ⟨_, _, hheld⟩ := hg₂
    refine Safe.orFail (Safe.map ((Pool.safe_onTopFree (Connection.route_stays _ _ _ _) (.inl rfl)
      hheld).mono fun answer g₃ hg₃ => ?_))
    obtain ⟨_, _, hheld⟩ := hg₃
    refine Safe.orFail (Safe.map ((Pool.safe_onTopFree (hstays _) (.inl rfl) hheld).mono fun _ g₄ hg₄ => ?_))
    obtain ⟨_, _, hheld⟩ := hg₄
    exact Safe.orFail (Safe.map ((Pool.safe_releaseFree hheld).mono fun _ _ hheld => hheld))

theorem safe_fetchTable (c : Cluster) (router : Address) (q : Inquiry) (hheld : g.held = held) :
    (c.fetchTable router q).run.Safe Grip.free g fun _ g' => g'.held = held := by
  unfold fetchTable
  refine Safe.orFail (Safe.orElse ((safe_askRouter c router q hheld).mono fun r g₁ hheld => ?_))
  cases r with
  | ok rows =>
    cases rows with
    | nil => exact hheld
    | cons row rest =>
      have hread (now : Instant) : (do
          let t ← ExceptT.mk (pure (Table.ofRow row q.database now))
          pure (if t.routers.isEmpty || t.readers.isEmpty then none else some t) :
          Pool.Attempt (Option Table)).run.Safe Grip.free g₁ fun _ g' => g'.held = held := by
        refine Safe.orFail ?_
        cases Table.ofRow row q.database now <;> exact hheld
      refine Safe.orFail (Safe.map ⟨trivial, ?_⟩)
      rintro now g₂ rfl
      exact hread now
  | error e =>
    dsimp only
    split
    · exact hheld
    · exact hheld

theorem safe_deactivate (a : Address) (hheld : g.held = held) :
    (deactivate a).Safe Grip.free g fun _ g' => g'.held = held := by
  unfold deactivate
  exact Safe.andThen (Pool.safe_freeMove fun _ =>
    (Pool.safe_deactivateFree a).mono fun _ g' hg' => (congrArg Grip.held hg').trans hheld)

theorem safe_candidates (c : Cluster) (q : Inquiry) (candidates : List Address) (hheld : g.held = held) :
    (c.renewFromCandidates q candidates).run.Safe Grip.free g fun _ g' => g'.held = held := by
  induction candidates generalizing g with
  | nil => exact hheld
  | cons a rest ih =>
    unfold renewFromCandidates
    refine Safe.orFail ((safe_fetchTable c a q hheld).mono fun found g₁ hheld => ?_)
    rcases found with e | _ | t
    · exact hheld
    · exact ih hheld
    · exact Safe.orFail (Safe.map (Pool.safe_freeMove fun _ => hheld))

theorem safe_routers (c : Cluster) (q : Inquiry) (routers : List Address) (hheld : g.held = held) :
    (c.renewFrom q routers).run.Safe Grip.free g fun _ g' => g'.held = held := by
  induction routers generalizing g with
  | nil => exact hheld
  | cons router rest ih =>
    unfold renewFrom
    refine Safe.orFail ((safe_candidates c q _ hheld).mono fun renewed g₁ hheld => ?_)
    rcases renewed with e | _ | _
    · exact hheld
    · exact Safe.orFail (Safe.map ((safe_deactivate router hheld).mono fun _ _ hheld => ih hheld))
    · exact hheld

theorem safe_renew (c : Cluster) (q : Inquiry) (hheld : g.held = held) :
    (c.renew q).run.Safe Grip.free g fun _ g' => g'.held = held := by
  unfold renew
  refine Safe.orFail (Safe.map (Pool.safe_freeMove fun now => ?_))
  have hlooked : ((Move.routers q.database).apply now g).2.held = held := hheld
  refine Safe.orFail ((safe_routers c q _ hlooked).mono fun renewed g₁ hheld => ?_)
  rcases renewed with e | _ | _ <;> exact hheld

/-- Nobody waits to be used under an address that no table lists. -/
def Tracked (d : Directory) (p : Pool) : Prop := ∀ s ∈ p.slots, s.idle ≠ [] → d.lists s.address = true

/-- Once all strangers have been given up, whoever waits is listed. -/
theorem safe_giveUpAll {strangers : List Address} (hd : g.pool.directory = some d)
    (hwaiting : ∀ s ∈ g.pool.slots, s.idle ≠ [] → d.lists s.address = true ∨ s.address ∈ strangers) :
    (forIn strangers PUnit.unit fun a _ => do
      Pool.deactivate a
      pure (ForInStep.yield PUnit.unit) : Pool.Task PUnit).Safe Grip.free g fun _ g' =>
        g'.pool.directory = some d ∧ Tracked d g'.pool ∧ g'.held = g.held := by
  induction strangers generalizing g with
  | nil => exact ⟨hd, fun s hs hidle => (hwaiting s hs hidle).resolve_right List.not_mem_nil, rfl⟩
  | cons a rest ih =>
    rw [List.forIn_cons]
    refine Safe.andThen (Safe.andThen ((Pool.safe_deactivateFree a).mono fun _ g₁ hg₁ => ?_))
    subst hg₁
    refine ih (Pool.directory_detach.trans hd) fun s hs hidle => ?_
    obtain ⟨hs, hother⟩ := Pool.idle_of_detach hs hidle
    exact (hwaiting s hs hidle).imp_right fun hmem => (List.mem_cons.mp hmem).resolve_left hother

theorem safe_dropStrangers (hd : g.pool.directory = some d) : dropStrangers.Safe Grip.free g fun _ g' =>
    g'.pool.directory = some d ∧ Tracked d g'.pool ∧ g'.held = g.held := by
  unfold dropStrangers
  refine Safe.andThen (Pool.safe_freeMove fun _ => Safe.andThen (safe_giveUpAll hd fun s hs _ => ?_))
  cases hlists : d.lists s.address with
  | true => exact .inl rfl
  | false =>
    refine .inr ?_
    simp only [Move.apply, Grip.look, hd, Option.map_some, Option.getD_some]
    exact List.mem_filter.mpr ⟨List.mem_map_of_mem hs, by rw [hlists]; rfl⟩

section

variable {S α : Type} {R : Surroundings Query S} {s s' : S} {role : Role}

/-- In the course of a run somebody has asked a router, and the row that came back spells a table that lists
routers and readers. -/
def Obtains (R : Surroundings Query S) (c : Cluster) (q : Inquiry) (x y : Pool.Task α × S) (router : Address)
    (t : Table) : Prop :=
  ∃ row rest u v now, Passes R x y (c.askRouter router q).run u (.ok (row :: rest)) v ∧
    Table.ofRow row q.database now = .ok t ∧ t.routers ≠ [] ∧ t.readers ≠ []

theorem Obtains.widen {β : Type} {x y : Pool.Task α × S} {x' y' : Pool.Task β × S} {router : Address} {t : Table}
    (h : Obtains R c q x y router t)
    (hwiden : ∀ {γ : Type} {part : Pool.Task γ} {u : S} {b : γ} {v : S}, Passes R x y part u b v →
      Passes R x' y' part u b v) : Obtains R c q x' y' router t := by
  obtain ⟨row, rest, u, v, now, hpasses, htable⟩ := h
  exact ⟨row, rest, u, v, now, hwiden hpasses, htable⟩

/-- A table that a router gives is one that it has answered with. -/
theorem of_fetchTable {router : Address} {t : Table}
    (hrun : Runs R (c.fetchTable router q).run s (.ok (some t)) s') :
    Obtains R c q ((c.fetchTable router q).run, s) (.done (.ok (some t)), s') router t := by
  unfold fetchTable at hrun ⊢
  obtain ⟨rows, u, htry, hrest⟩ | ⟨_, hfailed, _⟩ := hrun.of_orFail
  · cases rows with
    | nil => cases hrest.of_done.1
    | cons row rest =>
      obtain ⟨_, hok, hask⟩ | ⟨e, u', _, hhandler⟩ := htry.of_orElse
      · cases hok
        obtain ⟨now, v, _, hread⟩ := hrest.of_lift
        obtain ⟨t', w, hrow, hend⟩ | ⟨_, hfailed, _⟩ := hread.of_orFail
        · have htable : Table.ofRow row q.database now = .ok t' := hrow.of_done.1.symm
          have hgiven := hend.of_done.1
          split at hgiven
          · cases hgiven
          · next huseful =>
            cases hgiven
            refine ⟨row, rest, _, _, now, .inFirst (.inTry hask) hrest, htable, ?_⟩
            simpa using huseful
        · cases hfailed
      · split at hhandler
        · cases hhandler.of_done.1
        · cases hhandler.of_done.1
  · cases hfailed

/-- A renewal takes over what a candidate has answered. -/
theorem of_candidates {candidates : List Address}
    (hrun : Runs R (c.renewFromCandidates q candidates).run s (.ok true) s') :
    ∃ a ∈ candidates, ∃ t w,
      Obtains R c q ((c.renewFromCandidates q candidates).run, s) (.done (.ok true), s') a t ∧
      R.Answers w (.move (.store q.database t)) () s' := by
  induction candidates generalizing s with
  | nil => cases hrun.of_done.1
  | cons a rest ih =>
    unfold renewFromCandidates at hrun ⊢
    obtain ⟨found, u, hfetch, hrest⟩ | ⟨_, hfailed, _⟩ := hrun.of_orFail
    · cases found with
      | none =>
        obtain ⟨b, hb, t, w, hobtains, hstore⟩ := ih hrest
        exact ⟨b, List.mem_cons_of_mem a hb, t, w, hobtains.widen fun h => .inRest hfetch h, hstore⟩
      | some t =>
        obtain ⟨_, w, hstore, hend⟩ := hrest.of_lift
        obtain ⟨_, rfl⟩ := hend.of_done
        refine ⟨a, List.mem_cons_self, t, u, ?_, hstore.of_query⟩
        exact (of_fetchTable hfetch).widen fun h => .inFirst h hrest
    · cases hfailed

theorem of_renewFrom {routers : List Address} (hrun : Runs R (c.renewFrom q routers).run s (.ok true) s') :
    ∃ router ∈ routers, ∃ a ∈ c.resolver.expand router, ∃ t w,
      Obtains R c q ((c.renewFrom q routers).run, s) (.done (.ok true), s') a t ∧
      R.Answers w (.move (.store q.database t)) () s' := by
  induction routers generalizing s with
  | nil => cases hrun.of_done.1
  | cons router rest ih =>
    unfold renewFrom at hrun ⊢
    obtain ⟨renewed, u, hcandidates, hrest⟩ | ⟨_, hfailed, _⟩ := hrun.of_orFail
    · cases renewed with
      | true =>
        obtain ⟨_, rfl⟩ := hrest.of_done
        obtain ⟨a, ha, t, w, hobtains, hstore⟩ := of_candidates hcandidates
        refine ⟨router, List.mem_cons_self, a, ha, t, w, ?_, hstore⟩
        exact hobtains.widen fun h => .inFirst h hrest
      | false =>
        obtain ⟨_, v, hgone, hnext⟩ := hrest.of_lift
        obtain ⟨other, hother, a, ha, t, w, hobtains, hstore⟩ := ih hnext
        refine ⟨other, List.mem_cons_of_mem router hother, a, ha, t, w, ?_, hstore⟩
        exact hobtains.widen fun h => .inRest hcandidates (.inRestLifted hgone h)
    · cases hfailed

/-- A renewal begins with looking up the routers. -/
theorem of_renew {outcome : Except Error Unit} (hrun : Runs R (c.renew q).run s outcome s') :
    ∃ routers u, R.Answers s (.move (.routers q.database)) routers u ∧
      (outcome = .ok () → ∃ router ∈ routers, ∃ a ∈ c.resolver.expand router, ∃ t w,
        Obtains R c q ((c.renew q).run, s) (.done (.ok ()), s') a t ∧
        R.Answers w (.move (.store q.database t)) () s') := by
  unfold renew at hrun ⊢
  obtain ⟨routers, u, hlook, hrest⟩ := hrun.of_lift
  refine ⟨routers, u, hlook.of_query, ?_⟩
  rintro rfl
  obtain ⟨renewed, v, hasked, hend⟩ | ⟨_, hfailed, _⟩ := hrest.of_orFail
  · cases renewed with
    | true =>
      obtain ⟨_, rfl⟩ := hend.of_done
      obtain ⟨router, hrouter, a, ha, t, w, hobtains, hstore⟩ := of_renewFrom hasked
      refine ⟨router, hrouter, a, ha, t, w, ?_, hstore⟩
      exact hobtains.widen fun h => .inRestLifted hlook (.inFirst h hend)
    | false => cases hend.of_done.1
  · cases hfailed

/-- What comes of a renewal for the work that it is a part of. -/
def Outcome (R : Surroundings Query S) (role : Role) (q : Inquiry) (r : Except Error Bool) (s t : S) :
    Except Error Unit → Prop
  | .ok () => r = .ok true ∧ Runs R dropStrangers s () t
  | .error e =>
    r = .error e ∧ (t = s ∨ R.Answers s (.move (.serves role q.database)) false t) ∨
      ∃ detail, e = .routing detail ∧ r = .ok false ∧ R.Answers s (.move (.serves role q.database)) true t

/-- Either the table is fresh and that is all, or it is renewed. -/
theorem of_ensureFresh {r : Except Error Bool} (hrun : Runs R (c.ensureFresh role q).run s r s') :
    ∃ u fresh v w, R.Answers s .waitForTurn () u ∧ R.Answers u (.move (.isFresh role q.database)) fresh v ∧
      R.Answers w (.move .letGo) () s' ∧
      if fresh then r = .ok false ∧ w = v
      else ∃ outcome z, Passes R ((c.ensureFresh role q).run, s) (.done r, s') (c.renew q).run v outcome z ∧
        Outcome R role q r z w outcome := by
  unfold ensureFresh at hrun ⊢
  obtain ⟨u, w, hturn, hbody, hletGo⟩ := of_inTurn hrun
  obtain ⟨fresh, v, hlook, hrest⟩ := hbody.runs.of_lift
  refine ⟨u, fresh, v, w, hturn, hlook.of_query, hletGo, ?_⟩
  cases fresh with
  | true =>
    obtain ⟨rfl, rfl⟩ := hrest.of_done
    exact ⟨rfl, rfl⟩
  | false =>
    obtain ⟨outcome, z, hrenew, hafter⟩ := hrest.of_lift
    refine ⟨outcome, z, hbody.nest (.inRestLifted hlook (.lifted hrenew hafter)), ?_⟩
    cases outcome with
    | ok =>
      obtain ⟨_, y, hdrop, hend⟩ := hafter.of_lift
      obtain ⟨rfl, rfl⟩ := hend.of_done
      exact ⟨rfl, hdrop⟩
    | error e =>
      cases e with
      | routing detail =>
        obtain ⟨serves, y, hserves, hend⟩ := hafter.of_lift
        cases serves with
        | true =>
          obtain ⟨rfl, rfl⟩ := hend.of_done
          exact .inr ⟨detail, rfl, rfl, hserves.of_query⟩
        | false =>
          obtain ⟨rfl, rfl⟩ := hend.of_done
          exact .inl ⟨rfl, .inr hserves.of_query⟩
      | _ =>
        obtain ⟨rfl, rfl⟩ := hafter.of_done
        exact .inl ⟨rfl, .inl rfl⟩

end

/-- Somebody at work with a pool, and what they have done so far to find out about servers. -/
structure Watched where
  grip : Grip
  /-- The moment when the stored table was looked at. -/
  looked : Option Instant := none
  /-- Whether the routers were looked up, with which every renewal begins. -/
  begun : Bool := false
  /-- Whether anything but the time was asked of the network. -/
  contacted : Bool := false

def Watched.start (p : Pool) : Watched := { grip := ⟨p, []⟩ }

/-- What can be answered, if the stored table is looked at when the clock says one of some moments. -/
def Watched.Answers (clock : Instant → Prop) (s : Watched) : {β : Type} → Query β → β → Watched → Prop
  | _, .move (.isFresh role database), b, t => ∃ now g, clock now ∧
    (Move.isFresh role database).apply now s.grip = (b, g) ∧ t = { s with grip := g, looked := some now }
  | _, .move (.routers database), b, t =>
    ∃ g, s.grip.Answers (.move (.routers database)) b g ∧ t = { s with grip := g, begun := true }
  | _, .transfer .now, b, t => ∃ g, s.grip.Answers (.transfer .now) b g ∧ t = { s with grip := g }
  | _, .transfer q, b, t => ∃ g, s.grip.Answers (.transfer q) b g ∧ t = { s with grip := g, contacted := true }
  | _, q, b, t => ∃ g, s.grip.Answers q b g ∧ t = { s with grip := g }

def watching (clock : Instant → Prop) : Surroundings Query Watched where
  Answers s q b t := s.Answers clock q b t
  Allows _ _ := True

def Unlooking : {β : Type} → Query β → Prop
  | _, .move (.isFresh ..) => False
  | _, _ => True

section

variable {α β : Type} {clock : Instant → Prop} {s t : Watched}

/-- Whoever is watched gets no other answers, and what they have done is not forgotten. -/
theorem of_watching {q : Query β} {b : β} (h : (watching clock).Answers s q b t) :
    Grip.surroundings.Answers s.grip q b t.grip ∧ (s.begun = true → t.begun = true) ∧
      (Unlooking q → t.looked = s.looked) := by
  cases q with
  | move m =>
    cases m with
    | isFresh role database =>
      obtain ⟨now, g, _, happly, rfl⟩ := h
      exact ⟨⟨now, happly⟩, id, fun hq => hq.elim⟩
    | _ =>
      obtain ⟨g, hb, rfl⟩ := h
      exact ⟨hb, by simp, fun _ => rfl⟩
  | transfer q =>
    cases q <;> obtain ⟨g, hb, rfl⟩ := h <;> exact ⟨hb, id, fun _ => rfl⟩
  | edit | waitForChange | waitForTurn | draw =>
    obtain ⟨g, hb, rfl⟩ := h
    exact ⟨hb, id, fun _ => rfl⟩

theorem grip_of_runs {w : Pool.Task α} {b : α} (h : Runs (watching clock) w s b t) :
    Runs Grip.surroundings w s.grip b t.grip := h.seen Watched.grip fun hb => (of_watching hb).1

theorem begun_of_runs {w : Pool.Task α} {b : α} (h : Runs (watching clock) w s b t) (hs : s.begun = true) :
    t.begun = true := by
  have hall : w.Asks fun {_} (_ : Query _) => True := asks_of_all (fun _ => trivial) w
  exact hall.leads (fun s : Watched => s.begun = true) (fun hs _ hb => (of_watching hb).2.1 hs) hs h

theorem looked_of_runs {w : Pool.Task α} {b : α} (hw : w.Asks Unlooking) (h : Runs (watching clock) w s b t) :
    t.looked = s.looked :=
  hw.leads (fun t : Watched => t.looked = s.looked) (fun hs hq hb => ((of_watching hb).2.2 hq).trans hs) rfl h

end

theorem unlooking_of_plain {β : Type} {q : Query β} (h : q.Plain) : Unlooking q := by
  cases q with
  | move m =>
    cases m with
    | isFresh => exact h
    | _ => exact trivial
  | _ => exact trivial

theorem unlooking_basics (c : Cluster) : c.Basics fun {α : Type} (w : Pool.Task α) => w.Asks Unlooking where
  toBasics := Pool.asks_basics (fun {_ t} _ => Pool.onTop_asks_all (fun _ => trivial) (fun _ => trivial) t)
    (fun _ => trivial) trivial trivial fun _ => trivial
  acquiring a deadline liveness := (c.plain_basics.acquiring a deadline liveness).mono unlooking_of_plain
  asking router q := (c.plain_basics.asking router q).mono unlooking_of_plain
  timing := asks_query trivial
  discarding _ := Pool.asks_move trivial

theorem renew_unlooking (c : Cluster) (q : Inquiry) : (c.renew q).run.Asks Unlooking :=
  c.unlooking_basics.renew (fun _ => Pool.asks_move trivial) (Pool.asks_move trivial)

section

variable {clock : Instant → Prop} {s t : Watched} {role : Role} {outcome : Except Error Unit}

theorem begun_of_renew (hrun : Runs (watching clock) (c.renew q).run s outcome t) : t.begun = true := by
  unfold renew at hrun
  obtain ⟨routers, u, hlook, hrest⟩ := hrun.of_lift
  obtain ⟨g, _, rfl⟩ := hlook.of_query
  exact begun_of_runs hrest rfl

/-- Tables that are there stay there. -/
theorem directory_of_runs {α : Type} {w : Pool.Task α} {b : α} (hd : g.pool.directory = some d)
    (hrun : Runs Grip.surroundings w g b g') : ∃ d', g'.pool.directory = some d' := by
  have hall : w.Asks fun {_} (_ : Query _) => True := asks_of_all (fun _ => trivial) w
  refine hall.leads (fun g : Grip => ∃ d', g.pool.directory = some d') ?_ ⟨d, hd⟩ hrun
  rintro β q g b g' ⟨d, hd⟩ _ hb
  by_cases hq : q.Plain
  · have hkeeps : Pool.KeepsTables none g.pool g'.pool := Pool.keepsTables_answer hq hb
    obtain ⟨d', hd', _⟩ := hkeeps d hd
    exact ⟨d', hd'⟩
  · cases q with
    | move m =>
      obtain ⟨now, happly⟩ := hb
      obtain rfl : (m.apply now g).2 = g' := congrArg Prod.snd happly
      cases m with
      | isFresh | routers | store => exact ⟨_, congrArg (Option.map _) hd⟩
      | _ => exact absurd trivial hq
    | _ => exact absurd trivial hq

/-- When a table has been renewed the one that is stored is the one that was obtained. -/
theorem holds_of_renew (hd : s.grip.pool.directory = some d)
    (hrun : Runs (watching clock) (c.renew q).run s (.ok ()) t) :
    ∃ d' now, t.grip.pool.directory = some d' ∧ ∃ router ∈ (d.ensure q.database now).routers q.database now,
      ∃ a ∈ c.resolver.expand router, ∃ table,
        Obtains (watching clock) c q ((c.renew q).run, s) (.done (.ok ()), t) a table ∧
        d'.Holds q.database table ∧ d'.Holds table.database table := by
  obtain ⟨d', hd'⟩ := directory_of_runs hd (grip_of_runs hrun)
  obtain ⟨routers, u, ⟨_, ⟨now, hlook⟩, _⟩, hrenewed⟩ := of_renew hrun
  obtain ⟨router, hrouter, a, ha, table, w, hobtains, _, ⟨later, hstore⟩, rfl⟩ := hrenewed rfl
  have hrouters : (d.ensure q.database now).routers q.database now = routers := by
    have hfirst := congrArg Prod.fst hlook
    simp only [Pool.Move.apply, Pool.Grip.look, Pool.Grip.change, Pool.changeTables, hd, Option.map_some,
      Option.getD_some] at hfirst
    exact hfirst
  refine ⟨d', now, hd', router, hrouters ▸ hrouter, a, ha, table, hobtains, ?_⟩
  obtain rfl := congrArg Prod.snd hstore
  obtain ⟨before, _, rfl⟩ := Option.map_eq_some_iff.mp hd'
  exact ⟨before.holds_store _ table later (.inl rfl), before.holds_store _ table later (.inr rfl)⟩

end

/-- What a look at the table of a database does. -/
theorem look_eq {p : Pool} (hd : p.directory = some d) (role : Role) (database : Option String) (now : Instant)
    (held : List Holding) : (Move.isFresh role database).apply now ⟨p, held⟩
      = ((((d.purge now).ensure database now).table database now).isFresh role now,
          ⟨{ p with directory := some ((d.purge now).ensure database now) }, held⟩) := by
  simp only [Pool.Move.apply, Pool.Grip.look, Pool.Grip.change, Pool.changeTables, hd, Option.map_some,
    Option.getD_some]

theorem roleFor_ne (mode : AccessMode) : roleFor mode ≠ .route := by
  cases mode <;> exact nofun

/-- A table that is fresh is used as it is, and no renewal begins. -/
theorem ends_of_fresh {p : Pool} {mode : AccessMode} {now : Instant} (hd : p.directory = some d)
    (hfree : p.renewing = false) (hfresh : d.Fresh (roleFor mode) q.database now) :
    (c.ensureFresh (roleFor mode) q).run.Ends (watching (· = now))
      (fun r s => r = .ok false ∧ s.begun = false ∧ s.contacted = false) (.start p) := by
  have hlook := look_eq (p := { p with renewing := true }) hd (roleFor mode) q.database now [.turn]
  rw [(Directory.fresh_iff (roleFor_ne mode)).mp hfresh] at hlook
  refine .ask ⟨(), _, _, ⟨hfree, rfl⟩, rfl⟩ ?_
  rintro _ _ ⟨_, ⟨_, rfl⟩, rfl⟩
  refine .ask ⟨true, _, now, _, rfl, hlook, rfl⟩ ?_
  rintro fresh _ ⟨_, g, rfl, happly, rfl⟩
  obtain ⟨rfl, rfl⟩ := Prod.mk.inj (hlook.symm.trans happly)
  refine .ask ⟨(), _, _, ⟨.start, rfl⟩, rfl⟩ ?_
  rintro _ _ ⟨_, _, rfl⟩
  exact .done ⟨rfl, rfl, rfl⟩

theorem letGo_turn {later : Instant} {b : Unit} (hheld : g.held = [.turn])
    (h : Move.letGo.apply later g = (b, g')) : g' = ⟨{ g.pool with renewing := false }, []⟩ := by
  obtain ⟨p, held⟩ := g
  obtain rfl : held = [.turn] := hheld
  cases h
  rfl

theorem of_serves {clock : Instant → Prop} {s t : Watched} {role : Role} {database : Option String} {b : Bool}
    (hd : s.grip.pool.directory = some d)
    (h : (watching clock).Answers s (.move (.serves role database)) b t) :
    t = s ∧ d.serves role database = b := by
  obtain ⟨g, ⟨now, happly⟩, rfl⟩ := h
  obtain ⟨hb, rfl⟩ := Prod.mk.inj happly
  refine ⟨rfl, ?_⟩
  rw [← hb, Pool.Grip.look, hd]
  rfl

def Watched.looking (p : Pool) (d : Directory) (now : Instant) : Watched where
  grip := ⟨{ p with renewing := true, directory := some d }, [.turn]⟩
  looked := some now

theorem of_look {clock : Instant → Prop} {p : Pool} {role : Role} {database : Option String} {fresh : Bool}
    {u v : Watched} (hd : p.directory = some d) (hturn : (watching clock).Answers (.start p) .waitForTurn () u)
    (hlook : (watching clock).Answers u (.move (.isFresh role database)) fresh v) :
    ∃ now, fresh = (((d.purge now).ensure database now).table database now).isFresh role now ∧
      v = .looking p ((d.purge now).ensure database now) now := by
  obtain ⟨_, ⟨_, rfl⟩, rfl⟩ := hturn
  obtain ⟨now, g, _, happly, rfl⟩ := hlook
  obtain ⟨rfl, rfl⟩ := Prod.mk.inj ((look_eq (p := { p with renewing := true }) hd role database now _).symm.trans
    happly)
  exact ⟨now, rfl, rfl⟩

/-- Once the turn is over, everything but the turn is as it was. -/
theorem of_turnOver {clock : Instant → Prop} {s t : Watched} (hheld : s.grip.held = [.turn])
    (h : (watching clock).Answers s (.move .letGo) () t) :
    t = { s with grip := ⟨{ s.grip.pool with renewing := false }, []⟩ } := by
  obtain ⟨g, ⟨now, happly⟩, rfl⟩ := h
  rw [letGo_turn hheld happly]

/-- Whether a table can be used. If it is fresh once the tables whose time is long over have been thrown away, it
is used as it is, and nobody else is asked; otherwise a renewal begins. If that is reported to have worked, the
table is, role by role, one that a router has answered with, also under the name that the answer gives, and
nobody waits under an address that no table lists. If it is reported not to have worked, it has failed because no
router gave a table, and the table that is there lists a server of the role. -/
theorem ensureFresh_outcomes (c : Cluster) (mode : AccessMode) (q : Inquiry) (p : Pool) (d : Directory)
    (hd : p.directory = some d) (hfree : p.renewing = false) :
    (∀ now, d.Fresh (roleFor mode) q.database now →
      (c.ensureFresh (roleFor mode) q).run.Ends (watching (· = now))
        (fun r s => r = .ok false ∧ s.begun = false ∧ s.contacted = false) (.start p)) ∧
    ∀ r s, Runs (watching fun _ => True) (c.ensureFresh (roleFor mode) q).run (.start p) r s →
      ∃ now d', s.looked = some now ∧ s.grip.pool.directory = some d' ∧
        (r = .ok false ∧ s.begun = false ↔ d.Fresh (roleFor mode) q.database now) ∧
        (s.contacted = true → s.begun = true) ∧
        (r = .ok true → ∃ router ∈ (d.purge now).routers q.database now, ∃ a ∈ c.resolver.expand router, ∃ t,
          Obtains (watching fun _ => True) c q ((c.ensureFresh (roleFor mode) q).run, .start p) (.done r, s) a t ∧
          d'.Holds q.database t ∧ d'.Holds t.database t ∧ Tracked d' s.grip.pool) ∧
        (r = .ok false → s.begun = true → ∃ detail u v,
          Passes (watching fun _ => True) ((c.ensureFresh (roleFor mode) q).run, .start p) (.done r, s)
            (c.renew q).run u (.error (.routing detail)) v ∧
          d'.serves (roleFor mode) q.database = true) := by
  refine ⟨fun now hfresh => ends_of_fresh hd hfree hfresh, fun r s hrun => ?_⟩
  obtain ⟨u, fresh, v, w, hturn, hlook, hover, hcase⟩ := of_ensureFresh hrun
  obtain ⟨now, hanswer, rfl⟩ := of_look hd hturn hlook
  refine ⟨now, ?_⟩
  have hfresh : fresh = true ↔ d.Fresh (roleFor mode) q.database now := by
    rw [Directory.fresh_iff (roleFor_ne mode), hanswer]
  cases fresh with
  | true =>
    obtain ⟨rfl, rfl⟩ := hcase
    obtain rfl := of_turnOver rfl hover
    exact ⟨_, rfl, rfl, iff_of_true ⟨rfl, rfl⟩ (hfresh.mp rfl), nofun, nofun, fun _ => nofun⟩
  | false =>
    obtain ⟨outcome, z, hrenew, houtcome⟩ := hcase
    have hstale : ¬d.Fresh (roleFor mode) q.database now := fun h => Bool.false_ne_true (hfresh.mpr h)
    have hbegun := begun_of_renew hrenew.runs
    have hlooked : z.looked = some now := looked_of_runs (renew_unlooking c q) hrenew.runs
    have hheld : z.grip.held = [.turn] := post_of_runs (safe_renew c q rfl) (grip_of_runs hrenew.runs)
    cases outcome with
    | ok =>
      obtain ⟨rfl, hdrop⟩ := houtcome
      obtain ⟨d', later, hd', router, hrouter, a, ha, t, hobtains, hrequested, hnamed⟩ :=
        holds_of_renew rfl hrenew.runs
      rw [Directory.routers_ensure, Directory.routers_ensure] at hrouter
      obtain ⟨hkept, htracked, hsame⟩ := post_of_runs (safe_dropStrangers hd') (grip_of_runs hdrop)
      have hbegun' : w.begun = true := begun_of_runs hdrop hbegun
      have hlooked' : w.looked = z.looked :=
        looked_of_runs (c.unlooking_basics.dropStrangers (Pool.asks_move trivial)) hdrop
      obtain rfl := of_turnOver (hsame.trans hheld) hover
      refine ⟨d', hlooked'.trans hlooked, hkept, iff_of_false nofun hstale, fun _ => hbegun', fun _ => ?_, nofun⟩
      exact ⟨router, hrouter, a, ha, t, hobtains.widen fun h => hrenew.nest h, hrequested, hnamed, htracked⟩
    | error e =>
      obtain ⟨d', hd'⟩ := directory_of_runs rfl (grip_of_runs hrenew.runs)
      rcases houtcome with ⟨rfl, hw⟩ | ⟨detail, rfl, rfl, hserves⟩
      · obtain rfl : w = z := hw.elim id fun hserves => (of_serves hd' hserves).1
        obtain rfl := of_turnOver hheld hover
        exact ⟨d', hlooked, hd', iff_of_false nofun hstale, fun _ => hbegun, nofun, nofun⟩
      · obtain ⟨rfl, hserver⟩ := of_serves hd' hserves
        obtain rfl := of_turnOver hheld hover
        have hnot : ¬(Except.ok false = (Except.ok false : Except Error Bool) ∧ w.begun = false) := by
          simp [hbegun]
        exact ⟨d', hlooked, hd', iff_of_false hnot hstale, fun _ => hbegun, nofun,
          fun _ _ => ⟨detail, _, _, hrenew, hserver⟩⟩

def overdue : Directory := { known with tables := [(some "d", { given (some "d") with ttl := .zero })] }

def wantedInquiry : Inquiry := { homeInquiry with database := some "d" }

def overduePool : Pool := { directory := some overdue, closed := true }

theorem overdue_not_fresh : ¬overdue.Fresh .write (some "d") .start := by
  have hwrite : Role.write ≠ .route := nofun
  rw [Directory.fresh_iff hwrite]
  decide

theorem overdue_is_used : ∃ s, Runs (watching fun _ => True) (anyCluster.ensureFresh .write wantedInquiry).run
    (.start overduePool) (.ok false) s ∧ s.looked = some .start ∧ s.begun = true ∧ s.contacted = false := by
  refine ⟨?_, .head (.answer (b := ()) ⟨_, ⟨rfl, rfl⟩, rfl⟩) ?_, ?_⟩
  rotate_left
  · refine .head (.answer (b := false) ⟨.start, _, trivial, rfl, rfl⟩) ?_
    refine .head (.answer (b := [default]) ⟨_, ⟨.start, rfl⟩, rfl⟩) ?_
    refine .head .round ?_
    refine .head (.answer (b := none) ⟨_, ⟨.start, rfl⟩, rfl⟩) ?_
    -- the router is taken out of the tables and given up
    refine .head (.answer (b := ()) ⟨_, ⟨.start, rfl⟩, rfl⟩) ?_
    refine .head (.answer (b := 0) ⟨_, ⟨.start, rfl⟩, rfl⟩) ?_
    refine .head (.answer (b := true) ⟨_, ⟨.start, rfl⟩, rfl⟩) ?_
    refine .head (.answer (b := ()) ⟨_, ⟨.start, rfl⟩, rfl⟩) ?_
    exact .refl
  · exact ⟨rfl, rfl, rfl⟩

theorem ensureFresh_outcomes_known :
    (anyCluster.ensureFresh .write wantedInquiry).run.Ends (watching (· = .start))
      (fun r s => r = .ok false ∧ s.begun = false ∧ s.contacted = false) (.start { directory := some known }) ∧
    ∃ s d', Runs (watching fun _ => True) (anyCluster.ensureFresh .write wantedInquiry).run (.start overduePool)
        (.ok false) s ∧
      s.grip.pool.directory = some d' ∧ d'.serves .write (some "d") = true := by
  refine ⟨(ensureFresh_outcomes anyCluster .write wantedInquiry _ known rfl rfl).1 .start ?_, ?_⟩
  · exact (Directory.fresh_iff (roleFor_ne .write)).mpr (by decide)
  · obtain ⟨s, hrun, _, hbegun, _⟩ := overdue_is_used
    obtain ⟨_, d', _, hd', _, _, _, hkept⟩ :=
      (ensureFresh_outcomes anyCluster .write wantedInquiry overduePool overdue rfl rfl).2 _ s hrun
    obtain ⟨_, _, _, _, hserves⟩ := hkept rfl hbegun
    exact ⟨s, d', hrun, hd', hserves⟩

/-- A table need not be fresh to be used without asking anybody. -/
theorem used_without_asking_not_fresh :
    ¬∀ (c : Cluster) (mode : AccessMode) (q : Inquiry) (p : Pool) (d : Directory) (r : Except Error Bool)
      (s : Watched), p.directory = some d → p.renewing = false →
      Runs (watching fun _ => True) (c.ensureFresh (roleFor mode) q).run (.start p) r s →
      ∀ now, s.looked = some now → r = .ok false ∧ s.contacted = false →
        d.Fresh (roleFor mode) q.database now := by
  intro h
  obtain ⟨s, hrun, hlooked, _, hcontacted⟩ := overdue_is_used
  exact overdue_not_fresh
    (h anyCluster .write wantedInquiry overduePool overdue _ s rfl rfl hrun .start hlooked ⟨rfl, hcontacted⟩)

end Routing.Cluster
end BoltClient
