import BoltClient.Proofs.PackStream.Reading

namespace BoltClient.PackStream.Reader

variable {α β : Type} {a : α} {x : List UInt8} {r : Reader α} {f : α → Reader β}
  {P : List UInt8 → α → Prop} {Q : List UInt8 → β → Prop}

/-- Whatever the reader reads, it reads from bytes that stand for it. -/
def Finds (r : Reader α) (P : List UInt8 → α → Prop) : Prop :=
  ∀ bytes a rest, r.run.run bytes = (.ok a, rest) → ∃ x, bytes = x ++ rest ∧ P x a

theorem finds_pure (h : P [] a) : (pure a : Reader α).Finds P := by
  intro bytes _ rest hrun
  cases hrun
  exact ⟨[], rfl, h⟩

theorem finds_throw (e : Error) : (throw e : Reader α).Finds P := by
  intro bytes _ rest hrun
  cases hrun

theorem Finds.bind (hr : r.Finds P) (hf : ∀ x a, P x a → (f a).Finds fun y => Q (x ++ y)) :
    (r >>= f).Finds Q := by
  intro bytes b rest hrun
  rw [run_bind] at hrun
  split at hrun
  · next a middle hfirst =>
    obtain ⟨x, rfl, hx⟩ := hr _ _ _ hfirst
    obtain ⟨y, rfl, hy⟩ := hf x a hx _ _ _ hrun
    exact ⟨x ++ y, by rw [List.append_assoc], hy⟩
  · cases hrun

theorem Finds.thenPure {g : α → β} (hr : r.Finds P) (hg : ∀ x a, P x a → Q x (g a)) :
    (r >>= fun a => pure (g a)).Finds Q :=
  hr.bind fun x a hx => finds_pure (by rw [List.append_nil]; exact hg x a hx)

theorem Finds.mono {P' : List UInt8 → α → Prop} (hr : r.Finds P) (h : ∀ x a, P x a → P' x a) :
    r.Finds P' := by
  intro bytes a rest hrun
  obtain ⟨x, hx, hp⟩ := hr bytes a rest hrun
  exact ⟨x, hx, h x a hp⟩

theorem finds_byte : byte.Finds fun x b => x = [b] := by
  intro bytes b rest hrun
  cases bytes with
  | nil => cases hrun
  | cons b bytes =>
    cases hrun
    exact ⟨[b], rfl, rfl⟩

theorem finds_take (n : Nat) : (take n).Finds fun x taken => x = taken ∧ x.length = n := by
  intro bytes taken rest hrun
  change take n bytes = _ at hrun
  rw [take, split_eq] at hrun
  split at hrun
  · next hsplit =>
    split_ifs at hsplit with hlen
    cases hsplit
    cases hrun
    exact ⟨bytes.take n, by simp, rfl, by simp [hlen]⟩
  · cases hrun

theorem finds_number (width : Nat) :
    (number width).Finds fun x n => x = Bytes.ofNat width n ∧ n < Bytes.bound width := by
  refine (finds_take width).thenPure fun x taken hx => ?_
  obtain ⟨rfl, rfl⟩ := hx
  exact ⟨(Bytes.ofNat_toNat x).symm, Bytes.toNat_lt x⟩

theorem finds_text (n : Nat) :
    (text n).Finds fun x s => x = Text.Utf8.encode s ∧ (Text.Utf8.encode s).length = n := by
  refine (finds_take n).bind fun x taken hx => ?_
  obtain ⟨rfl, hlen⟩ := hx
  cases hdecode : Text.Utf8.decode x with
  | error fault => exact finds_throw _
  | ok s =>
    have hencode := Text.Utf8.encode_of_decode hdecode
    exact finds_pure (by simpa [hencode] using hlen)

theorem finds_times (Row : List UInt8 → List α → Prop) (hr : r.Finds P) (nil : Row [] [])
    (cons : ∀ {x y a as}, P x a → Row y as → Row (x ++ y) (a :: as)) (n : Nat) (done : List α) :
    (times r done n).Finds fun x as =>
      ∃ new, as = done.reverse ++ new ∧ new.length = n ∧ Row x new := by
  induction n generalizing done with
  | zero => exact finds_pure ⟨[], by simp, rfl, nil⟩
  | succ n ih =>
    refine hr.bind fun x a hx => (ih (a :: done)).mono fun y as h => ?_
    obtain ⟨new, rfl, rfl, hrow⟩ := h
    exact ⟨a :: new, by simp, rfl, cons hx hrow⟩

theorem finds_untilNone {one : Reader (Option α)} (Row : List UInt8 → List α → Prop)
    (hone : one.Finds fun x a? => a?.elim (x = [0xDF]) (P x)) (nil : Row [] [])
    (cons : ∀ {x y a as}, P x a → Row y as → Row (x ++ y) (a :: as)) (done : List α) :
    Finds (untilNone one done) fun x as =>
      ∃ new y, as = done.reverse ++ new ∧ x = y ++ [0xDF] ∧ Row y new := by
  intro bytes as rest hrun
  change untilNone one done bytes = _ at hrun
  fun_induction untilNone one done bytes with
  | case1 => cases hrun
  | case2 done bytes rest' hnone =>
    cases hrun
    obtain ⟨x, rfl, hx⟩ := hone _ _ _ hnone
    exact ⟨x, rfl, [], [], by simp, hx, nil⟩
  | case3 done bytes a rest' hsome hshorter ih =>
    obtain ⟨x, rfl, hx⟩ := hone _ _ _ hsome
    obtain ⟨z, rfl, new, y, rfl, rfl, hrow⟩ := ih hrun
    exact ⟨x ++ (y ++ [0xDF]), by simp, a :: new, x ++ y, by simp, by simp, cons hx hrow⟩
  | case4 => cases hrun

end BoltClient.PackStream.Reader
