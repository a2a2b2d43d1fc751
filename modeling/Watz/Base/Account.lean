import Mathlib.Algebra.Order.Group.Multiset

namespace Watz.Base.Account

-- What an event does to one kind of resource.
inductive Change (α : Type) where
  | gain (a : α)
  | lose (a : α)
  | keep

section Balance

variable {ε α : Type} [DecidableEq α] (change : ε → Change α)

-- What is held after the events, the last one first.
def balance : List ε → Multiset α
  | [] => 0
  | event :: log =>
      match change event with
      | .gain a => a ::ₘ balance log
      | .lose a => (balance log).erase a
      | .keep => balance log

variable {change} {event : ε} {log : List ε} {a : α} {held : Multiset α}

theorem balance_gain (h : change event = .gain a) (hlog : balance change log = held) :
    balance change (event :: log) = a ::ₘ held := by
  rw [balance, h]
  exact congrArg _ hlog

theorem balance_lose (h : change event = .lose a) (hlog : balance change log = a ::ₘ held) :
    balance change (event :: log) = held := by
  rw [balance, h]
  change (balance change log).erase a = held
  rw [hlog, Multiset.erase_cons_head]

theorem balance_keep (h : change event = .keep) (hlog : balance change log = held) :
    balance change (event :: log) = held := by
  rw [balance, h]
  exact hlog

end Balance

section Lawful

variable {ε : Type} (allowed : List ε → ε → Prop)

-- Each event was allowed after those before it.
def Lawful : List ε → Prop
  | [] => True
  | event :: log => allowed log event ∧ Lawful log

end Lawful

end Watz.Base.Account
