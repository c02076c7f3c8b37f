/-
  One call of `tju_send`.

  The loop of `tju_send` runs against clean-ups that drop bytes from the front
  of `sending_buf`.  When the free part of the buffer is too short for what is
  left to copy, the loop fills it and should go on behind the copied part; but
  it computes the length of that part from the already overwritten
  `sending_len`, as 0, and starts again at the front (`tjuSendRound_cases`).

  `send_returns`: the call appends its argument exactly once if and only if no
  round finds such a free part.
-/
import TjuTcp.Socket

namespace Tju

open Lib

/-- The send buffer, the call while it has not returned, and what the call has appended. -/
structure CallState where
  sendingBuf : List Byte
  call : Option SendCall
  appended : List Byte

/-- A round of the loop of `tju_send`, or a clean-up of the first `n` bytes. -/
inductive CallEv where
  | round
  | clean (n : ℕ)

def callStep (s : CallState) : CallEv → Option CallState
  | .round => s.call.map fun c =>
    let r := tjuSendRound s.sendingBuf c
    ⟨r.1, r.2, s.appended ++ r.1.drop s.sendingBuf.length⟩
  | .clean n =>
    if n ≤ s.sendingBuf.length then some { s with sendingBuf := s.sendingBuf.drop n } else none

/-- `tju_send` is called with `buffer`. -/
def CallState.start (sendingBuf buffer : List Byte) : CallState :=
  ⟨sendingBuf, some ⟨buffer, buffer.length⟩, []⟩

/-- A round finds no free byte, or room for all `len` bytes. -/
def Fits (len : ℕ) (s : CallState) : CallEv → Prop
  | .round => s.sendingBuf.length = maxSockBufSize ∨ s.sendingBuf.length + len ≤ maxSockBufSize
  | .clean _ => True

variable {sendingBuf buffer : List Byte} {s s' : CallState}

/-! ## One round -/

/-- **A round** waits, returns with the whole argument appended, or appends the front of the
    argument and forgets that it did. -/
theorem tjuSendRound_cases (buffer : List Byte) (hb : sendingBuf.length ≤ maxSockBufSize) :
    (sendingBuf.length = maxSockBufSize ∧ tjuSendRound sendingBuf ⟨buffer, buffer.length⟩ =
      (sendingBuf, some ⟨buffer, buffer.length⟩)) ∨
    (sendingBuf.length + buffer.length ≤ maxSockBufSize ∧
      tjuSendRound sendingBuf ⟨buffer, buffer.length⟩ = (sendingBuf ++ buffer, none)) ∨
    (sendingBuf.length < maxSockBufSize ∧ maxSockBufSize < sendingBuf.length + buffer.length ∧
      tjuSendRound sendingBuf ⟨buffer, buffer.length⟩ =
        (sendingBuf ++ buffer.take (maxSockBufSize - sendingBuf.length),
          some ⟨buffer, buffer.length⟩)) := by
  unfold tjuSendRound
  dsimp only
  split_ifs with hgo h0 hfit
  · exact Or.inl ⟨by omega, rfl⟩
  · exact Or.inr (Or.inl ⟨by omega, by rw [List.take_length]⟩)
  · refine Or.inr (Or.inr ⟨by omega, by omega, ?_⟩)
    rw [Nat.sub_self, List.drop_zero, Nat.sub_zero]
  · have hz : buffer.length = 0 := by omega
    exact Or.inr (Or.inl ⟨by omega, by rw [List.length_eq_zero_iff.1 hz, List.append_nil]⟩)

/-! ## Runs -/

/-- Once the call has returned, nothing is appended. -/
theorem exec_returned (buffer : List Byte) (es : List CallEv) {s : CallState} (hc : s.call = none)
    (he : exec callStep s es = some s') :
    s'.call = none ∧ s'.appended = s.appended ∧ Along callStep (Fits buffer.length) s es := by
  induction es generalizing s with
  | nil => cases he; exact ⟨hc, rfl, trivial⟩
  | cons e es ih =>
    obtain ⟨t, ht, het⟩ := Option.bind_eq_some_iff.1 he
    cases e with
    | round => simp [callStep, hc] at ht
    | clean n =>
      simp only [callStep] at ht
      split_ifs at ht with hn
      cases ht
      obtain ⟨h1, h2, h3⟩ := ih (s := { s with sendingBuf := s.sendingBuf.drop n }) hc het
      refine ⟨h1, h2, trivial, fun u hu => ?_⟩
      simp only [callStep, if_pos hn, Option.some.injEq] at hu
      exact hu ▸ h3

/-- One step leaves the length of the buffer in its bounds. -/
theorem length_step {e : CallEv} (hs : s.sendingBuf.length ≤ maxSockBufSize)
    (hc : ∀ c ∈ s.call, c = ⟨buffer, buffer.length⟩) (he : callStep s e = some s') :
    s'.sendingBuf.length ≤ maxSockBufSize ∧ ∀ c ∈ s'.call, c = ⟨buffer, buffer.length⟩ := by
  cases e with
  | round =>
    obtain ⟨c, hcall, rfl⟩ := Option.map_eq_some_iff.1 he
    obtain rfl := hc c hcall
    rcases tjuSendRound_cases buffer hs with ⟨-, hr⟩ | ⟨hfit, hr⟩ | ⟨-, -, hr⟩
    · simp only [hr]; exact ⟨hs, fun c hc => (Option.some.inj hc).symm⟩
    · simp only [hr]; exact ⟨by rw [List.length_append]; exact hfit, fun c hc => by cases hc⟩
    · simp only [hr]
      refine ⟨by rw [List.length_append, List.length_take]; omega, fun c hc => ?_⟩
      exact (Option.some.inj hc).symm
  | clean n =>
    simp only [callStep] at he
    split_ifs at he
    cases he
    exact ⟨by rw [List.length_drop]; omega, hc⟩

/-- **A call that returns** has appended its argument behind what its partial rounds appended,
    and there is none of these exactly when every round fits. -/
theorem exec_call (es : List CallEv) {s : CallState} (hs : s.sendingBuf.length ≤ maxSockBufSize)
    (hc : s.call = some ⟨buffer, buffer.length⟩) (he : exec callStep s es = some s')
    (hret : s'.call = none) : ∃ extra, s'.appended = s.appended ++ extra ++ buffer ∧
      (extra = [] ↔ Along callStep (Fits buffer.length) s es) := by
  induction es generalizing s with
  | nil => cases he; rw [hc] at hret; cases hret
  | cons e es ih =>
    obtain ⟨t, ht, het⟩ := Option.bind_eq_some_iff.1 he
    -- the rest of the run starts in the only successor
    have halong : Along callStep (Fits buffer.length) s (e :: es) ↔
        Fits buffer.length s e ∧ Along callStep (Fits buffer.length) t es := by
      refine and_congr_right fun _ => ⟨fun h => h t ht, fun h u hu => ?_⟩
      rw [ht] at hu; cases hu; exact h
    cases e with
    | round =>
      simp only [callStep, hc, Option.map_some, Option.some.injEq] at ht
      rcases tjuSendRound_cases buffer hs with ⟨hfull, hr⟩ | ⟨hfit, hr⟩ | ⟨hlt, hgt, hr⟩
      · simp only [hr, List.drop_length, List.append_nil] at ht
        obtain ⟨extra, ha, hiff⟩ := ih (s := t) (by rw [← ht]; exact hs) (by rw [← ht]) het
        refine ⟨extra, by rw [ha, ← ht], ?_⟩
        rw [halong, hiff]
        exact ⟨fun h => ⟨Or.inl hfull, h⟩, fun h => h.2⟩
      · simp only [hr, List.drop_left] at ht
        obtain ⟨-, ha, hal⟩ := exec_returned buffer es (s := t) (by rw [← ht]) het
        refine ⟨[], by rw [ha, ← ht, List.append_nil], ?_⟩
        rw [halong]
        exact ⟨fun _ => ⟨Or.inr hfit, hal⟩, fun _ => rfl⟩
      · simp only [hr, List.drop_left] at ht
        obtain ⟨extra, ha, -⟩ := ih (s := t)
          (by rw [← ht, List.length_append, List.length_take]; omega) (by rw [← ht]) het
        refine ⟨buffer.take (maxSockBufSize - s.sendingBuf.length) ++ extra,
          by rw [ha, ← ht, List.append_assoc s.appended], ?_⟩
        -- at least one byte is appended twice
        have hne : buffer.take (maxSockBufSize - s.sendingBuf.length) ++ extra ≠ [] := fun h => by
          have hl := congrArg List.length h
          rw [List.length_append, List.length_take, List.length_nil] at hl
          omega
        refine ⟨fun h => absurd h hne, fun h => ?_⟩
        rcases (halong.1 h).1 with h1 | h1 <;> omega
    | clean n =>
      simp only [callStep] at ht
      split_ifs at ht
      cases ht
      obtain ⟨extra, ha, hiff⟩ := ih (s := { s with sendingBuf := s.sendingBuf.drop n })
        (by rw [List.length_drop]; omega) hc het
      exact ⟨extra, ha, by rw [halong, hiff]; exact ⟨fun h => ⟨trivial, h⟩, fun h => h.2⟩⟩

/-- **`tju_send`.**  For every buffer content, every argument and every run of rounds and
    clean-ups, `sending_len` stays in its bounds; and when the call has returned, it has appended
    its argument exactly once if and only if every round found no free byte or room for all. -/
theorem send_returns {es : List CallEv} (hb : sendingBuf.length ≤ maxSockBufSize)
    (he : exec callStep (.start sendingBuf buffer) es = some s') :
    s'.sendingBuf.length ≤ maxSockBufSize ∧ (s'.call = none → (s'.appended = buffer ↔
      Along callStep (Fits buffer.length) (.start sendingBuf buffer) es)) := by
  have hlen := (ReachBy.of_exec es he).inv
    (I := fun s => s.sendingBuf.length ≤ maxSockBufSize ∧
      ∀ c ∈ s.call, c = ⟨buffer, buffer.length⟩)
    ⟨hb, fun c hc => (Option.some.inj hc).symm⟩ fun _ _ _ hi _ => length_step hi.1 hi.2
  refine ⟨hlen.1, fun hret => ?_⟩
  obtain ⟨extra, ha, hiff⟩ := exec_call es hb rfl he hret
  rw [← hiff, ha]
  simp [CallState.start]

/-- A call with an empty buffer and two bytes returns after one round. -/
theorem send_returns_two :
    ([1, 2] : List Byte).length ≤ maxSockBufSize ∧ (none = (none : Option SendCall) →
      (([1, 2] : List Byte) = [1, 2] ↔
        Along callStep (Fits 2) (.start [] [1, 2]) [.round])) :=
  @send_returns [] [1, 2] ⟨[1, 2], none, [1, 2]⟩ [.round] (by simp) rfl

/-- With one free byte, the first of two bytes is appended alone, and both of them after a
    clean-up. -/
theorem exec_oneFree (hb : sendingBuf.length + 1 = maxSockBufSize) (hl : buffer.length = 2) :
    ∃ s', exec callStep (.start sendingBuf buffer) [.round, .clean 2, .round] = some s' ∧
      s'.call = none ∧ s'.appended = buffer.take 1 ++ buffer := by
  have h1 : tjuSendRound sendingBuf ⟨buffer, buffer.length⟩ =
      (sendingBuf ++ buffer.take 1, some ⟨buffer, buffer.length⟩) := by
    rcases tjuSendRound_cases buffer (show sendingBuf.length ≤ maxSockBufSize by omega) with
      ⟨h, -⟩ | ⟨h, -⟩ | ⟨-, -, hr⟩
    · omega
    · omega
    · rw [hr, show maxSockBufSize - sendingBuf.length = 1 by omega]
  have hlen : (sendingBuf ++ buffer.take 1).length = maxSockBufSize := by
    rw [List.length_append, List.length_take]; omega
  have hlen' : ((sendingBuf ++ buffer.take 1).drop 2).length + 2 = maxSockBufSize := by
    have : 2 ≤ maxSockBufSize := by simp
    rw [List.length_drop]; omega
  have h2 : tjuSendRound ((sendingBuf ++ buffer.take 1).drop 2) ⟨buffer, buffer.length⟩ =
      ((sendingBuf ++ buffer.take 1).drop 2 ++ buffer, none) := by
    rcases tjuSendRound_cases buffer
        (show ((sendingBuf ++ buffer.take 1).drop 2).length ≤ maxSockBufSize by omega) with
      ⟨h, -⟩ | ⟨-, hr⟩ | ⟨-, h, -⟩
    · omega
    · exact hr
    · omega
  refine ⟨⟨(sendingBuf ++ buffer.take 1).drop 2 ++ buffer, none, buffer.take 1 ++ buffer⟩, ?_,
    rfl, rfl⟩
  simp only [exec, callStep, CallState.start, Option.map_some, h1, Option.bind_some,
    List.drop_left, List.nil_append]
  rw [if_pos (by omega)]
  simp only [Option.bind_some, Option.map_some, h2, List.drop_left]

/-- With one free byte, a call with two bytes appends the first one twice. -/
theorem send_repeats : ¬ ∀ sendingBuf buffer es s', sendingBuf.length ≤ maxSockBufSize →
    exec callStep (.start sendingBuf buffer) es = some s' → s'.call = none →
      s'.appended = buffer := by
  intro hall
  have hb : (List.replicate (maxSockBufSize - 1) (0 : Byte)).length + 1 = maxSockBufSize := by
    have : 1 ≤ maxSockBufSize := by simp
    rw [List.length_replicate]; omega
  obtain ⟨s', he, hret, ha⟩ := exec_oneFree hb (show ([1, 2] : List Byte).length = 2 from rfl)
  have := hall _ _ _ s' (by omega) he hret
  rw [ha] at this
  exact absurd this (by decide)

end Tju
