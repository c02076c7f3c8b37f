/-
  The slots of `cal_hash` (src/kernel.c).

  `cal_hash` adds its four arguments as `int` and takes the remainder of C,
  which has the sign of the sum.  With the sum as an unsigned word (`hashSum`),
  the remainder is the usual one below 2^31 (`calHash_nonneg`), and at most 0
  from there on (`calHash_neg`).

  * `calHash_range`: when the slot is an index of the tables;
  * `calHash_connection`: the slots of the connections between the two hosts;
  * `calHash_listening`: the slots of the listening sockets of the server.
-/
import TjuTcp.Syn

namespace Tju

open Lib

/-- The sum in `cal_hash`, as an unsigned word. -/
def hashSum (localIp : BitVec 32) (localPort : BitVec 16) (remoteIp : BitVec 32)
    (remotePort : BitVec 16) : ℕ :=
  (localIp.toNat + localPort.toNat + remoteIp.toNat + remotePort.toNat) % 2 ^ 32

variable {localIp remoteIp : BitVec 32} {localPort remotePort : BitVec 16}

theorem calHash_eq : calHash localIp localPort remoteIp remotePort =
    (if hashSum localIp localPort remoteIp remotePort < 2 ^ 31
      then (hashSum localIp localPort remoteIp remotePort : ℤ)
      else hashSum localIp localPort remoteIp remotePort - 2 ^ 32).tmod 32 := by
  have hsum : (localIp + localPort.setWidth 32 + remoteIp + remotePort.setWidth 32).toNat =
      hashSum localIp localPort remoteIp remotePort := by
    simp [hashSum, BitVec.toNat_add]
  unfold calHash
  rw [BitVec.toInt_eq_toNat_cond, hsum]
  congr 1
  split_ifs <;> first | rfl | omega

/-- A sum that is not negative has its usual remainder. -/
theorem calHash_nonneg (h : hashSum localIp localPort remoteIp remotePort < 2 ^ 31) :
    calHash localIp localPort remoteIp remotePort =
      (hashSum localIp localPort remoteIp remotePort % 32 : ℕ) := by
  rw [calHash_eq, if_pos h, Int.tmod_eq_emod_of_nonneg (by omega)]
  rfl

/-- A negative sum has a remainder that is not positive. -/
theorem calHash_neg (h : 2 ^ 31 ≤ hashSum localIp localPort remoteIp remotePort) :
    calHash localIp localPort remoteIp remotePort =
      -((2 ^ 32 - hashSum localIp localPort remoteIp remotePort) % 32 : ℕ) := by
  have hlt : hashSum localIp localPort remoteIp remotePort < 2 ^ 32 := Nat.mod_lt _ (by decide)
  rw [calHash_eq, if_neg (by omega), ← neg_sub, Int.neg_tmod,
    Int.tmod_eq_emod_of_nonneg (by omega)]
  omega

/-- **The slot is an index** of the tables just when the sum is not negative as an `int`, or is
    divisible by their length. -/
theorem calHash_range (localIp : BitVec 32) (localPort : BitVec 16) (remoteIp : BitVec 32)
    (remotePort : BitVec 16) :
    0 ≤ calHash localIp localPort remoteIp remotePort ∧
        calHash localIp localPort remoteIp remotePort < maxSock ↔
      hashSum localIp localPort remoteIp remotePort < 2 ^ 31 ∨
        maxSock ∣ hashSum localIp localPort remoteIp remotePort := by
  have hlt : hashSum localIp localPort remoteIp remotePort < 2 ^ 32 := Nat.mod_lt _ (by decide)
  rw [maxSock]
  rcases Nat.lt_or_ge (hashSum localIp localPort remoteIp remotePort) (2 ^ 31) with h | h
  · rw [calHash_nonneg h]
    omega
  · rw [calHash_neg h]
    omega

/-- A server that listens on port 1234 registers its socket eleven slots in front of the table. -/
theorem calHash_listen : ¬ (0 ≤ calHash serverIp 1234 0 0 ∧ calHash serverIp 1234 0 0 < maxSock) := by
  decide

/-! ## The addresses of the program -/

/-- The sum for a connection is that of the ports, up to a constant, on both hosts. -/
theorem calHash_connection (localPort remotePort : BitVec 16) :
    calHash serverIp localPort clientIp remotePort =
        ((5 + localPort.toNat + remotePort.toNat) % 32 : ℕ) ∧
      calHash clientIp localPort serverIp remotePort =
        ((5 + localPort.toNat + remotePort.toNat) % 32 : ℕ) := by
  have hl := localPort.isLt
  have hr := remotePort.isLt
  have hs : serverIp.toNat = 0xAC110003 := rfl
  have hc : clientIp.toNat = 0xAC110002 := rfl
  constructor
  · have hsum : hashSum serverIp localPort clientIp remotePort =
        0x58220005 + localPort.toNat + remotePort.toNat := by unfold hashSum; omega
    rw [calHash_nonneg (by omega), hsum]
    omega
  · have hsum : hashSum clientIp localPort serverIp remotePort =
        0x58220005 + localPort.toNat + remotePort.toNat := by unfold hashSum; omega
    rw [calHash_nonneg (by omega), hsum]
    omega

/-- The sum for a listening socket of the server is negative, so that only one port of 32 has a
    slot in the table. -/
theorem calHash_listening (port : BitVec 16) :
    calHash serverIp port 0 0 = -((29 + 31 * port.toNat) % 32 : ℕ) := by
  have hp := port.isLt
  have hs : serverIp.toNat = 0xAC110003 := rfl
  have hsum : hashSum serverIp port 0 0 = 0xAC110003 + port.toNat := by
    unfold hashSum
    simp
    omega
  rw [calHash_neg (by omega), hsum]
  omega

end Tju
