import SwiftLink.Library.PriorityQueue

/-!
# Receive timeouts

`set_receive_timeout` of `net/udp_socket.cpp`.  The socket option takes a `timeval`, and to it a
`timeval` of zero means to wait for ever, so a time that is up becomes the smallest time there is.

Deadlines are in nanoseconds and the option in microseconds.  Callers cast, which rounds towards
zero, so the socket may be told to wake up almost a microsecond before the deadline.
-/

namespace SwiftLink

structure Timeval where
  sec : ℤ
  usec : ℤ
  deriving Repr, DecidableEq

/-- `duration_cast<microseconds>` of a duration in nanoseconds. -/
def toMicroseconds (duration : ℤ) : ℤ := duration.tdiv 1000

namespace UdpSocket

/-- What `set_receive_timeout` hands to `setsockopt`. -/
def receiveTimeout (timeout : ℤ) : Timeval :=
  let timeout := if timeout ≤ 0 then 1 else timeout
  let seconds := timeout.tdiv 1000000
  { sec := seconds, usec := timeout - seconds * 1000000 }

end UdpSocket

namespace Timeval

/-- The time the kernel is asked to wait, in nanoseconds. -/
def nanoseconds (tv : Timeval) : ℤ := (tv.sec * 1000000 + tv.usec) * 1000

/-- **The option is well formed and never zero**: it asks for the time given, or for one
microsecond. -/
lemma receiveTimeout_spec (timeout : ℤ) :
    let tv := UdpSocket.receiveTimeout timeout
    0 ≤ tv.sec ∧ 0 ≤ tv.usec ∧ tv.usec < 1000000 ∧ tv ≠ ⟨0, 0⟩ ∧
      tv.nanoseconds = max 1 timeout * 1000 := by
  intro tv
  have hpos : 0 < (if timeout ≤ 0 then 1 else timeout) := by split_ifs <;> omega
  have hmax : (if timeout ≤ 0 then 1 else timeout) = max 1 timeout := by split_ifs <;> omega
  have htv : tv = { sec := (max 1 timeout).tdiv 1000000
                    usec := max 1 timeout - (max 1 timeout).tdiv 1000000 * 1000000 } := by
    simp only [tv, UdpSocket.receiveTimeout, hmax]
  rw [hmax] at hpos
  have hdiv : (max 1 timeout).tdiv 1000000 = max 1 timeout / 1000000 :=
    Int.tdiv_eq_ediv_of_nonneg hpos.le
  rw [htv, hdiv]
  refine ⟨by dsimp only; omega, by dsimp only; omega, by dsimp only; omega, fun h => ?_, ?_⟩
  · rw [Timeval.mk.injEq] at h
    omega
  · simp only [nanoseconds]
    omega

/-- What a caller with a deadline ahead of it asks for is short of the deadline by less than a
microsecond. -/
lemma nanoseconds_deadline (wait : ℤ) :
    wait - 1000 < (UdpSocket.receiveTimeout (toMicroseconds wait)).nanoseconds ∧
      1000 ≤ (UdpSocket.receiveTimeout (toMicroseconds wait)).nanoseconds := by
  obtain ⟨-, -, -, -, hns⟩ := receiveTimeout_spec (toMicroseconds wait)
  rw [hns]
  rcases le_or_gt wait 0 with hneg | hpos
  · omega
  · have hdiv : toMicroseconds wait = wait / 1000 := Int.tdiv_eq_ediv_of_nonneg hpos.le
    omega

end Timeval

end SwiftLink
