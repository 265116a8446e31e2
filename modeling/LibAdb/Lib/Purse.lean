import LibAdb.Lib.Tasks

/-!
# LibAdb.Lib.Purse — credit that is reserved before it is spent

A purse is filled by grants.  Users reserve from it, put what they reserved on a wire, and then either commit it or
give it back; a user that vanishes half way gives back what it had not committed, even if the wire has it, and from
then on nothing more goes on the wire (`torn`).

* `Conserved.balance`: what is in the purse, what is reserved and what is spent is what was granted.
* `Conserved.within`: the wire never carries more than was granted.
-/

namespace Purse

open Tasks

/-- Where a user's reservation stands. -/
inductive Standing where
  | idle
  | waits (n : ℕ)
  | onWire (n : ℕ)
  | committed (n : ℕ)
  deriving DecidableEq, Repr

/-- A user: its reservation, and what it has spent for good. -/
structure Account where
  standing : Standing
  spent : ℕ
  deriving DecidableEq, Repr

namespace Account

/-- Reserved, and not on the wire. -/
def waiting (a : Account) : ℕ := match a.standing with
  | .waits n => n
  | _ => 0

/-- Reserved, and on the wire. -/
def wire (a : Account) : ℕ := match a.standing with
  | .onWire n => n
  | _ => 0

/-- Spent for good, or committed. -/
def settled (a : Account) : ℕ := a.spent + match a.standing with
  | .committed n => n
  | _ => 0

end Account

structure Ledger where
  purse : ℤ
  users : List Account
  granted : ℕ
  wire : ℕ
  torn : Bool

namespace Ledger

/-- What can happen to a ledger. -/
inductive Step (l : Ledger) : Ledger → Prop
  | reserve (i n k : ℕ) (hi : l.users[i]? = some ⟨.idle, k⟩) (hn : (n : ℤ) ≤ l.purse) :
      Step l { l with purse := l.purse - n, users := l.users.set i ⟨.waits n, k⟩ }
  | refund (i n k : ℕ) (hi : l.users[i]? = some ⟨.waits n, k⟩) :
      Step l { l with purse := l.purse + n, users := l.users.set i ⟨.idle, k⟩ }
  | write (i n k : ℕ) (hi : l.users[i]? = some ⟨.waits n, k⟩) (hwhole : l.torn = false) :
      Step l { l with wire := l.wire + n, users := l.users.set i ⟨.onWire n, k⟩ }
  | commit (i n k : ℕ) (hi : l.users[i]? = some ⟨.onWire n, k⟩) :
      Step l { l with users := l.users.set i ⟨.committed n, k⟩ }
  | advance (i n k : ℕ) (hi : l.users[i]? = some ⟨.committed n, k⟩) :
      Step l { l with users := l.users.set i ⟨.idle, k + n⟩ }
  | tear (i n k : ℕ) (hi : l.users[i]? = some ⟨.onWire n, k⟩) :
      Step l { l with torn := true, users := l.users.set i ⟨.waits n, k⟩ }
  | grant (g : ℕ) : Step l { l with purse := l.purse + g, granted := l.granted + g }
  | join : Step l { l with users := l.users ++ [⟨.idle, 0⟩] }
  | breaks : Step l { l with torn := true }

/-- What a ledger that began with `start` in the purse keeps. -/
structure Conserved (start : ℤ) (l : Ledger) : Prop where
  nonneg : 0 ≤ l.purse
  balance : l.purse + total Account.waiting l.users + total Account.wire l.users + total Account.settled l.users =
    start + l.granted
  onWire : l.torn = false → l.wire = total Account.settled l.users + total Account.wire l.users
  within : (l.wire : ℤ) ≤ start + l.granted

/-- What the sums become when one user moves. -/
theorem sums_set {users : List Account} {i : ℕ} {a : Account} (a' : Account) (hi : users[i]? = some a) :
    total Account.waiting (users.set i a') + a.waiting = total Account.waiting users + a'.waiting ∧
    total Account.wire (users.set i a') + a.wire = total Account.wire users + a'.wire ∧
    total Account.settled (users.set i a') + a.settled = total Account.settled users + a'.settled :=
  ⟨total_set _ a' hi, total_set _ a' hi, total_set _ a' hi⟩

/-- **Every step conserves credit.** -/
theorem Step.conserves {start : ℤ} {l l' : Ledger} (h : Conserved start l) (hs : Step l l') : Conserved start l' := by
  obtain ⟨hn, hb, hw, hl⟩ := h
  cases hs with
  | reserve i n k hi hle =>
    obtain ⟨h1, h2, h3⟩ := sums_set ⟨.waits n, k⟩ hi
    simp only [Account.waiting, Account.wire, Account.settled] at h1 h2 h3
    exact ⟨by dsimp only; omega, by dsimp only; omega, fun ht => by dsimp only; have := hw ht; omega, hl⟩
  | refund i n k hi =>
    obtain ⟨h1, h2, h3⟩ := sums_set ⟨.idle, k⟩ hi
    simp only [Account.waiting, Account.wire, Account.settled] at h1 h2 h3
    exact ⟨by dsimp only; omega, by dsimp only; omega, fun ht => by dsimp only; have := hw ht; omega, hl⟩
  | write i n k hi hwhole =>
    obtain ⟨h1, h2, h3⟩ := sums_set ⟨.onWire n, k⟩ hi
    simp only [Account.waiting, Account.wire, Account.settled] at h1 h2 h3
    have := hw hwhole
    exact ⟨hn, by dsimp only; omega, fun _ => by dsimp only; omega, by dsimp only; omega⟩
  | commit i n k hi =>
    obtain ⟨h1, h2, h3⟩ := sums_set ⟨.committed n, k⟩ hi
    simp only [Account.waiting, Account.wire, Account.settled] at h1 h2 h3
    exact ⟨hn, by dsimp only; omega, fun ht => by dsimp only; have := hw ht; omega, hl⟩
  | advance i n k hi =>
    obtain ⟨h1, h2, h3⟩ := sums_set ⟨.idle, k + n⟩ hi
    simp only [Account.waiting, Account.wire, Account.settled] at h1 h2 h3
    exact ⟨hn, by dsimp only; omega, fun ht => by dsimp only; have := hw ht; omega, hl⟩
  | tear i n k hi =>
    obtain ⟨h1, h2, h3⟩ := sums_set ⟨.waits n, k⟩ hi
    simp only [Account.waiting, Account.wire, Account.settled] at h1 h2 h3
    exact ⟨hn, by dsimp only; omega, nofun, hl⟩
  | grant g => exact ⟨by dsimp only; omega, by dsimp only; omega, hw, by dsimp only; omega⟩
  | join =>
    refine ⟨hn, ?_, fun ht => ?_, hl⟩
    · simpa [total_append, Account.waiting, Account.wire, Account.settled] using hb
    · simpa [total_append, Account.wire, Account.settled] using hw ht
  | breaks => exact ⟨hn, hb, nofun, hl⟩

end Ledger

end Purse
