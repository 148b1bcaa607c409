import BoltClient.PackStream.Cursor
import BoltClient.Proofs.PackStream.Recognition

namespace BoltClient.PackStream

namespace Cursor

def left (c : Cursor) : List UInt8 := c.bytes.drop c.position

def forward (c : Cursor) (n : Nat) : Cursor := { c with position := c.position + n }

def Within (c : Cursor) : Prop := c.position ≤ c.bytes.length

variable {c : Cursor} {m n : Nat}

theorem left_forward (c : Cursor) (n : Nat) : (c.forward n).left = c.left.drop n := List.drop_drop.symm

theorem forward_forward (c : Cursor) (m n : Nat) : (c.forward m).forward n = c.forward (m + n) := by
  unfold forward
  rw [Nat.add_assoc]

theorem length_left (c : Cursor) : c.left.length = c.bytes.length - c.position := List.length_drop

theorem Within.forward (h : c.Within) (hn : n ≤ c.left.length) : (c.forward n).Within := by
  rw [length_left] at hn
  exact Nat.add_le_of_le_sub' h hn

end Cursor

namespace Walk

variable {α β : Type} {w : Walk α} {r : Reader α} {one : Walk (Option Value)} {part : Reader (Option Value)}
  {depth most least more steps : Nat}

def told : Except Error α → Except Halt α
  | .ok a => .ok a
  | .error e => .error (.refused e)

/-- At a depth and with at most `most` bytes left, a walk does what a reader does with the bytes that are left. It goes
as far as the reader reads, `least` bytes or more if it succeeds, and otherwise the cursor stays as it is. -/
def Follows (w : Walk α) (r : Reader α) (depth most least : Nat) : Prop :=
  ∀ c : Cursor, c.Within → c.depth = depth → c.left.length ≤ most →
    ∃ outcome n, n ≤ c.left.length ∧ (∀ a, outcome = .ok a → least ≤ n) ∧
      r.run.run c.left = (outcome, c.left.drop n) ∧ w.run.run c = (told outcome, c.forward n)

/-- A failure may take any number of bytes. -/
theorem least_le_of_error {e : Error} {a : α} {n : Nat} (h : Except.error e = .ok a) : least ≤ n := by cases h

theorem follows_pure (a : α) : Follows (pure a) (pure a) depth most 0 :=
  fun _ _ _ _ => ⟨.ok a, 0, Nat.zero_le _, fun _ _ => Nat.le_refl 0, rfl, rfl⟩

theorem follows_refuse (e : Error) : Follows (refuse e : Walk α) (throw e) depth most least :=
  fun _ _ _ _ => ⟨.error e, 0, Nat.zero_le _, fun _ => least_le_of_error, rfl, rfl⟩

/-- The same said of a cursor that stands some bytes behind another. -/
theorem Follows.behind (h : Follows w r depth most least) {c : Cursor} {m : Nat} (hwithin : c.Within)
    (hdepth : c.depth = depth) (hm : m ≤ c.left.length) (hmost : c.left.length ≤ m + most) :
    ∃ outcome n, m + n ≤ c.left.length ∧ (∀ a, outcome = .ok a → least ≤ n) ∧
      r.run.run (c.left.drop m) = (outcome, c.left.drop (m + n)) ∧
      w.run.run (c.forward m) = (told outcome, c.forward (m + n)) := by
  have hless : (c.forward m).left.length ≤ most := by
    rw [Cursor.left_forward, List.length_drop]
    omega
  obtain ⟨outcome, n, hn, hleast, hread, hwalk⟩ := h (c.forward m) (hwithin.forward hm) hdepth hless
  rw [Cursor.left_forward] at hn hread
  rw [List.length_drop] at hn
  rw [List.drop_drop] at hread
  rw [Cursor.forward_forward] at hwalk
  exact ⟨outcome, n, by omega, hleast, hread, hwalk⟩

theorem Follows.bind {f : α → Walk β} {g : α → Reader β} (h : Follows w r depth most least)
    (hf : ∀ a, least ≤ most → Follows (f a) (g a) depth (most - least) more) :
    Follows (w >>= f) (r >>= g) depth most (least + more) := by
  intro c hwithin hdepth hmost
  obtain ⟨outcome, n, hn, hleast, hread, hwalk⟩ := h c hwithin hdepth hmost
  rw [run_bind, run_bind, hread, hwalk]
  cases outcome with
  | error e => exact ⟨.error e, n, hn, fun _ => least_le_of_error, rfl, rfl⟩
  | ok a =>
    have hfirst : least ≤ n := hleast a rfl
    have hsecond := hf a (by omega)
    obtain ⟨outcome', n', hn', hmore, hread', hwalk'⟩ := hsecond.behind hwithin hdepth hn (by omega)
    exact ⟨outcome', n + n', hn', fun b hb => Nat.add_le_add hfirst (hmore b hb), hread', hwalk'⟩

theorem Follows.andThen {f : α → Walk β} {g : α → Reader β} (h : Follows w r depth most least)
    (hf : ∀ a, least ≤ most → Follows (f a) (g a) depth (most - least) 0) :
    Follows (w >>= f) (r >>= g) depth most least := h.bind hf

theorem Follows.thenPure {g : α → β} (h : Follows w r depth most least) :
    Follows (w >>= fun a => pure (g a)) (r >>= fun a => pure (g a)) depth most least :=
  h.andThen fun a _ => follows_pure (g a)

theorem Follows.mono {less fewer : Nat} (h : Follows w r depth most least) (hmost : less ≤ most)
    (hleast : fewer ≤ least) : Follows w r depth less fewer := by
  intro c hwithin hdepth hless
  obtain ⟨outcome, n, hn, hall, hread, hwalk⟩ := h c hwithin hdepth (Nat.le_trans hless hmost)
  exact ⟨outcome, n, hn, fun a ha => Nat.le_trans hleast (hall a ha), hread, hwalk⟩

theorem Follows.any (h : Follows w r depth most least) : Follows w r depth most 0 :=
  h.mono (Nat.le_refl _) (Nat.zero_le _)

theorem run_ensure_of_le {c : Cursor} {n : Nat} (h : n ≤ c.left.length) : (ensure n).run.run c = (.ok (), c) := by
  rw [Cursor.length_left] at h
  exact if_neg (Nat.not_lt.mpr h)

theorem run_ensure_of_lt {c : Cursor} {n : Nat} (h : c.left.length < n) :
    (ensure n).run.run c = (.error (.refused .unexpectedEnd), c) := by
  rw [Cursor.length_left] at h
  exact if_pos h

theorem run_take (n : Nat) (bytes : List UInt8) : (Reader.take n).run.run bytes
    = if n ≤ bytes.length then (.ok (bytes.take n), bytes.drop n) else (.error .unexpectedEnd, bytes) := by
  change Reader.take n bytes = _
  rw [Reader.take, Reader.split_eq]
  by_cases hroom : n ≤ bytes.length
  · rw [if_pos hroom, if_pos hroom]
    rfl
  · rw [if_neg hroom, if_neg hroom]

theorem follows_take (n : Nat) : Follows (take n) (Reader.take n) depth most n := by
  intro c hwithin _ _
  unfold take
  rw [run_bind, run_take]
  by_cases hroom : n ≤ c.left.length
  · have hinside : c.position + n ≤ c.bytes.length := hwithin.forward hroom
    rw [run_ensure_of_le hroom, if_pos hroom]
    exact ⟨.ok (c.left.take n), n, hroom, fun _ _ => Nat.le_refl n, rfl, if_pos hinside⟩
  · rw [run_ensure_of_lt (Nat.lt_of_not_le hroom), if_neg hroom]
    exact ⟨.error .unexpectedEnd, 0, Nat.zero_le _, fun _ => least_le_of_error, rfl, rfl⟩

theorem follows_byte : Follows byte Reader.byte depth most 1 := by
  intro c _ _ _
  unfold byte
  rw [run_bind]
  cases hleft : c.left with
  | nil =>
    have hnone : c.left.length < 1 := by
      rw [hleft]
      exact Nat.one_pos
    rw [run_ensure_of_lt hnone]
    exact ⟨.error .unexpectedEnd, 0, Nat.le_refl 0, fun _ => least_le_of_error, rfl, rfl⟩
  | cons b rest =>
    have hsome : 1 ≤ c.left.length := by
      rw [hleft]
      exact Nat.succ_le_succ (Nat.zero_le _)
    have hplace : c.bytes[c.position]? = some b := by
      rw [← List.head?_drop]
      change c.left.head? = some b
      rw [hleft]
      rfl
    have hhere : here.run.run c = (.ok b, c.forward 1) := by
      change here c = _
      rw [here, hplace]
      rfl
    rw [run_ensure_of_le hsome]
    exact ⟨.ok b, 1, Nat.succ_le_succ (Nat.zero_le _), fun _ _ => Nat.le_refl 1, rfl, hhere⟩

theorem follows_number (width : Nat) : Follows (number width) (Reader.number width) depth most width :=
  (follows_take width).thenPure

theorem follows_size (kind : Sized) (s : Size) : Follows (size kind s) (Reader.size kind s) depth most 0 := by
  cases s with
  | inMarker n => exact follows_pure n
  | inNext width =>
    refine ((follows_number width).andThen fun n _ => ?_).any
    split
    · exact follows_pure n
    · exact follows_refuse _

theorem follows_text (n : Nat) : Follows (text n) (Reader.text n) depth most 0 := by
  refine ((follows_take n).andThen fun content _ => ?_).any
  cases Text.Utf8.decode content with
  | ok s => exact follows_pure s
  | error fault => exact follows_refuse _

theorem Follows.times (h : Follows w r depth most least) (done : List α) (n : Nat) :
    Follows (times w done n) (Reader.times r done n) depth most 0 := by
  induction n generalizing done with
  | zero => exact follows_pure _
  | succ n ih =>
    refine (h.andThen fun a _ => ?_).any
    exact (ih (a :: done)).mono (Nat.sub_le _ _) (Nat.le_refl 0)

/-- Each part of a stream takes a byte at least, so as many steps as there are bytes, and one for the end, suffice. -/
theorem Follows.untilNone {w : Walk (Option α)} {r : Reader (Option α)} (h : Follows w r depth most 1)
    (done : List α) (hsteps : most < steps) :
    Follows (untilNone w done steps) (Reader.untilNone r done) depth most 0 := by
  induction steps generalizing most done with
  | zero => exact absurd hsteps (Nat.not_lt_zero _)
  | succ steps ih =>
    intro c hwithin hdepth hmost
    obtain ⟨outcome, n, hn, hall, hread, hwalk⟩ := h c hwithin hdepth hmost
    have hpart : r c.left = (outcome, c.left.drop n) := hread
    change ∃ _ _, _ ∧ _ ∧ Reader.untilNone r done c.left = _ ∧ _
    unfold Walk.untilNone
    rw [run_bind, hwalk, Reader.untilNone, hpart]
    cases outcome with
    | error e => exact ⟨.error e, n, hn, fun _ => least_le_of_error, rfl, rfl⟩
    | ok a? =>
      have hpos : 1 ≤ n := hall a? rfl
      cases a? with
      | none => exact ⟨.ok done.reverse, n, hn, fun _ _ => Nat.zero_le _, rfl, rfl⟩
      | some a =>
        have hshorter : (c.left.drop n).length < c.left.length := by
          rw [List.length_drop]
          omega
        have hrest : Follows (Walk.untilNone w (a :: done) steps) (Reader.untilNone r (a :: done)) depth (most - n) 0 :=
          ih (h.mono (Nat.sub_le _ _) (Nat.le_refl 1)) (a :: done) (by omega)
        obtain ⟨outcome', n', hn', _, hread', hwalk'⟩ := hrest.behind hwithin hdepth hn (by omega)
        dsimp only
        rw [if_pos hshorter]
        exact ⟨outcome', n + n', hn', fun _ _ => Nat.zero_le _, hread', hwalk'⟩

theorem Follows.required (h : Follows one part depth most least) :
    Follows (required one) (Reader.required part) depth most least := by
  refine h.andThen fun a _ => ?_
  cases a with
  | none => exact follows_refuse _
  | some v => exact follows_pure v

theorem Follows.key (h : Follows one part depth most least) :
    Follows (key one) (Reader.key part) depth most least := by
  refine h.required.andThen fun v _ => ?_
  cases v with
  | text s => exact follows_pure s
  | _ => exact follows_refuse _

theorem Follows.entry (h : Follows one part depth most least) :
    Follows (entry one) (Reader.entry part) depth most least := by
  have hvalue := (h.mono (Nat.sub_le most least) (Nat.zero_le _)).required
  exact h.key.bind fun _ _ => hvalue.thenPure

theorem Follows.entryOrEnd (h : Follows one part depth most least) :
    Follows (entryOrEnd one) (Reader.entryOrEnd part) depth most least := by
  have hvalue := (h.mono (Nat.sub_le most least) (Nat.zero_le _)).required
  refine h.andThen fun a _ => ?_
  cases a with
  | none => exact follows_pure _
  | some v =>
    cases v with
    | text name => exact hvalue.thenPure
    | _ => exact follows_refuse _

theorem Follows.contents (h : Follows one part depth most 1) (hsteps : most < steps) (c : Reader.Container) :
    Follows (contents steps one c) (Reader.contents part c) depth most 0 := by
  cases c with
  | list n => exact (h.required.times [] n).thenPure
  | map n => exact (h.entry.times [] n).thenPure
  | struct n =>
    refine (follows_byte.andThen fun tag _ => ?_).any
    exact ((h.required.mono (Nat.sub_le _ _) (Nat.le_refl 1)).times [] n).thenPure
  | listStream => exact (h.untilNone [] hsteps).thenPure
  | mapStream => exact (h.entryOrEnd.untilNone [] hsteps).thenPure

/-- A container is left at the depth at which it was entered. -/
theorem Follows.nested (h : Follows w r (depth + 1) most least) (hdepth : depth < maxNesting) :
    Follows (nested w) r depth most least := by
  intro c hwithin hc hmost
  obtain ⟨outcome, n, hn, hall, hread, hwalk⟩ :=
    h { c with depth := c.depth + 1 } hwithin (congrArg (· + 1) hc) hmost
  refine ⟨outcome, n, hn, hall, hread, ?_⟩
  have hinside : w { c with depth := c.depth + 1 } = (told outcome, { c with depth := c.depth + 1 }.forward n) := hwalk
  change Walk.nested w c = _
  rw [Walk.nested, if_neg (by rw [hc]; exact Nat.not_le.mpr hdepth), hinside]
  rfl

theorem follows_nested_full (w : Walk α) (h : maxNesting ≤ depth) :
    Follows (nested w) (throw (.tooDeep maxNesting)) depth most least := by
  intro c _ hc _
  refine ⟨.error (.tooDeep maxNesting), 0, Nat.zero_le _, fun _ => least_le_of_error, rfl, ?_⟩
  change Walk.nested w c = _
  rw [Walk.nested, if_pos (by rw [hc]; exact h)]
  rfl

theorem follows_itemWith {inside : Option (Reader (Option Value))}
    (container : 1 ≤ most → ∀ c,
      Follows (itemWith.container steps one c) (Reader.itemWith.container inside c) depth (most - 1) 0) :
    Follows (itemWith steps one) (Reader.itemWith inside) depth most 1 := by
  have sized (kind : Sized) (s : Size) {f : Nat → Walk (Option Value)} {g : Nat → Reader (Option Value)}
      (hf : ∀ n, Follows (f n) (g n) depth (most - 1) 0) :
      Follows (size kind s >>= f) (Reader.size kind s >>= g) depth (most - 1) 0 :=
    (follows_size kind s).bind fun n _ => hf n
  refine follows_byte.andThen fun b hpos => ?_
  cases Marker.ofByte? b with
  | none => exact follows_refuse _
  | some m =>
    cases m with
    | null | bool | tinyInt | endOfStream => exact follows_pure _
    | int width => exact (follows_take width).thenPure.any
    | float => exact (follows_number 8).thenPure.any
    | listStream => exact container hpos .listStream
    | mapStream => exact container hpos .mapStream
    | sized kind s =>
      cases kind with
      | bytes => exact sized _ s fun n => (follows_take n).thenPure.any
      | text => exact sized _ s fun n => (follows_text n).thenPure
      | list => exact sized _ s fun n => container hpos (.list n)
      | map => exact sized _ s fun n => container hpos (.map n)
      | struct => exact sized _ s fun n => container hpos (.struct n)

/-- With more steps than there are bytes left, an item is read as in the room that is left at the depth. The byte in
front of it is behind the cursor when the reading goes on inside, so one step less suffices there. -/
theorem follows_item (hdepth : depth ≤ maxNesting) (hsteps : most < steps) :
    Follows (item steps) (Reader.item (maxNesting - depth)) depth most 1 := by
  induction steps generalizing depth most with
  | zero => exact absurd hsteps (Nat.not_lt_zero _)
  | succ steps ih =>
    have hless (hpos : 1 ≤ most) : most - 1 < steps := by omega
    rcases Nat.lt_or_eq_of_le hdepth with hroom | rfl
    · have hitem : Reader.item (maxNesting - depth)
          = Reader.itemWith (some (Reader.item (maxNesting - (depth + 1)))) := by
        rw [show maxNesting - depth = maxNesting - (depth + 1) + 1 by omega]
        rfl
      rw [hitem]
      refine follows_itemWith fun hpos c => ?_
      exact (((ih hroom (hless hpos)).contents (hless hpos) c).nested hroom).thenPure
    · have hitem : Reader.item (maxNesting - maxNesting) = Reader.itemWith none := by
        rw [Nat.sub_self]
        rfl
      rw [hitem]
      exact follows_itemWith fun _ c => (follows_nested_full _ (Nat.le_refl _)).thenPure

theorem follows_value (hsteps : most < steps) : Follows (required (item steps)) Reader.value 0 most 1 :=
  (follows_item (Nat.zero_le _) hsteps).required

end Walk

/-- The decoder after a number of readings, whether or not they succeeded. -/
def Decoder.after (d : Decoder) : Nat → Decoder
  | 0 => d
  | calls + 1 => (d.after calls).decode.2

namespace Cursor

variable {c : Cursor} {bytes : List UInt8} {steps : Nat}

def after (c : Cursor) (steps : Nat) : Nat → Cursor
  | 0 => c
  | calls + 1 => ((c.after steps calls).decode steps).2

def decoder (c : Cursor) : Decoder := ⟨c.position, c.left⟩

/-- What one reading does: it has an outcome and takes some of the bytes that are left. -/
structure Reads (c : Cursor) (steps : Nat) (outcome : Except Error Value) (n : Nat) : Prop where
  /-- The value is given or refused, and the cursor is where it was but for its place. -/
  ends : c.decode steps = (Walk.told outcome, c.forward n)
  inside : n ≤ c.left.length
  advances : ∀ v, outcome = .ok v → 1 ≤ n
  decoder : c.decoder.decode = (outcome, (c.forward n).decoder)
  /-- The same comes of the bytes if nothing was read before them. -/
  first : PackStream.decode c.left = outcome
  /-- There is room for values of any depth that is allowed. -/
  levels : ∀ v x rest, c.left = x ++ rest → Derives 256 x (.value v) → outcome = .ok v ∧ n = x.length

/-- Between two readings no container is under way. -/
structure AtRest (c : Cursor) (bytes : List UInt8) : Prop where
  bytes : c.bytes = bytes
  within : c.Within
  depth : c.depth = 0

theorem atRest_ofBytes (bytes : List UInt8) : (ofBytes bytes).AtRest bytes := ⟨rfl, Nat.zero_le _, rfl⟩

theorem AtRest.forward {n : Nat} (h : c.AtRest bytes) (hn : n ≤ c.left.length) : (c.forward n).AtRest bytes :=
  ⟨h.bytes, h.within.forward hn, h.depth⟩

theorem AtRest.exists_reads (h : c.AtRest bytes) (hsteps : bytes.length < steps) :
    ∃ outcome n, c.Reads steps outcome n := by
  have hleft : c.left.length ≤ bytes.length := by
    rw [length_left, h.bytes]
    exact Nat.sub_le _ _
  obtain ⟨outcome, n, hn, hall, hread, hwalk⟩ := Walk.follows_value hsteps c h.within h.depth hleft
  have htaken : c.left.length - (c.left.drop n).length = n := by
    rw [List.length_drop]
    omega
  refine ⟨outcome, n, hwalk, hn, hall, ?_, ?_, ?_⟩
  · rw [decoder, Decoder.decode, hread]
    dsimp only
    rw [htaken, ← left_forward]
    rfl
  · rw [PackStream.decode, Reader.decode_ofBytes hread]
  · intro v x rest hbytes hx
    have hvalue : Reader.value.run.run c.left = (.ok v, rest) := run_value_iff.mpr ⟨x, hbytes, hx⟩
    have hsame := hread.symm.trans hvalue
    obtain ⟨houtcome, hrest⟩ := Prod.mk.inj hsame
    refine ⟨houtcome, ?_⟩
    rw [hrest, hbytes, List.length_append] at htaken
    omega

theorem AtRest.after (h : c.AtRest bytes) (hsteps : bytes.length < steps) (calls : Nat) :
    (c.after steps calls).AtRest bytes ∧ (c.after steps calls).decoder = c.decoder.after calls := by
  induction calls with
  | zero => exact ⟨h, rfl⟩
  | succ calls ih =>
    obtain ⟨hrest, hdecoder⟩ := ih
    obtain ⟨outcome, n, hreads⟩ := hrest.exists_reads hsteps
    rw [Cursor.after, Decoder.after, ← hdecoder, hreads.ends, hreads.decoder]
    exact ⟨hrest.forward hreads.inside, rfl⟩

/-- However many values were read or refused before, no container is under way, the place is that of a decoder after
as many readings, and the next reading ends. -/
theorem every_reading_ends (bytes : List UInt8) (steps : Nat) (hsteps : bytes.length < steps) (calls : Nat) :
    let c := (ofBytes bytes).after steps calls
    c.bytes = bytes ∧ c.position ≤ bytes.length ∧ c.depth = 0 ∧ c.decoder = (Decoder.ofBytes bytes).after calls ∧
      ∃ outcome n, c.Reads steps outcome n := by
  intro c
  obtain ⟨hrest, hdecoder⟩ := (atRest_ofBytes bytes).after hsteps calls
  refine ⟨hrest.bytes, ?_, hrest.depth, hdecoder, hrest.exists_reads hsteps⟩
  have hwithin : c.position ≤ c.bytes.length := hrest.within
  rwa [hrest.bytes] at hwithin

/-- An integer behind a list with a bad part and a list in which a stream ends. -/
theorem integer_behind_bad_lists :
    let bytes : List UInt8 := [0x91, 0xC4, 0x92, 0x01, 0xDF, 0x02]
    let c := (ofBytes bytes).after 7 2
    bytes.length < 7 ∧ c = ⟨bytes, 5, 0⟩ ∧ c.Reads 7 (.ok (.int 2)) 1 := by
  intro bytes c
  have hplace : c = ⟨bytes, 5, 0⟩ := rfl
  have hint : Derives 256 [0x02] (.value (.int 2)) := .int (.tiny (by decide) (by decide))
  obtain ⟨-, -, -, -, outcome, n, hreads⟩ := every_reading_ends bytes 7 (by decide) 2
  change c.Reads 7 outcome n at hreads
  obtain ⟨rfl, rfl⟩ := hreads.levels (.int 2) [0x02] [] (by rw [hplace]; rfl) hint
  exact ⟨by decide, hplace, hreads⟩

end Cursor
end BoltClient.PackStream
