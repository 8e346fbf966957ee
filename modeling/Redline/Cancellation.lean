import Redline.Table

/-! Cancellation tokens and those who wait for them. A token fires once; its clones are names
of the same token. -/

namespace Redline

/-- Someone who waits for a token has to be asked before it is in the token's register, and
only registered waiters are woken. -/
inductive Waiting where
  | unasked
  | registered
  | woken
  | over
  deriving DecidableEq, Repr

structure Waiter where
  token : Nat
  waiting : Waiting
  deriving DecidableEq, Repr

inductive Poll where
  | ready
  | pending
  | gone
  deriving DecidableEq, Repr

structure Tokens where
  names : Table String Nat
  fired : List Nat
  waiters : Table String Waiter
  made : Nat
  deriving DecidableEq, Repr

namespace Tokens

def empty : Tokens := ⟨.empty, [], .empty, 0⟩

def make (tokens : Tokens) (name : String) : Tokens :=
  { tokens with names := tokens.names.set name tokens.made, made := tokens.made + 1 }

def clone (tokens : Tokens) (token name : String) : Tokens :=
  match tokens.names.get? token with
  | some number => { tokens with names := tokens.names.set name number }
  | none => tokens

def isFired (tokens : Tokens) (number : Nat) : Bool := decide (number ∈ tokens.fired)

def Waiter.wake (number : Nat) (waiter : Waiter) : Waiter :=
  if waiter.token = number ∧ waiter.waiting = .registered then { waiter with waiting := .woken }
  else waiter

def fire (tokens : Tokens) (number : Nat) : Tokens :=
  if tokens.isFired number then tokens
  else { tokens with
    fired := number :: tokens.fired
    waiters := tokens.waiters.mapValues (Waiter.wake number) }

def cancel (tokens : Tokens) (token : String) : Tokens :=
  match tokens.names.get? token with
  | some number => tokens.fire number
  | none => tokens

def wait (tokens : Tokens) (token name : String) : Tokens :=
  match tokens.names.get? token with
  | some number => { tokens with waiters := tokens.waiters.set name ⟨number, .unasked⟩ }
  | none => tokens

def setWaiting (tokens : Tokens) (name : String) (waiter : Waiter) (waiting : Waiting) : Tokens :=
  { tokens with waiters := tokens.waiters.set name { waiter with waiting } }

/-- The first time, a waiter enters the register before it looks at the token; later it only
looks whether it was woken. -/
def poll (tokens : Tokens) (name : String) : Poll × Tokens :=
  match tokens.waiters.get? name with
  | none => (.gone, tokens)
  | some waiter =>
      match waiter.waiting with
      | .unasked =>
          if tokens.isFired waiter.token then (.ready, tokens.setWaiting name waiter .over)
          else (.pending, tokens.setWaiting name waiter .registered)
      | .registered => (.pending, tokens)
      | .woken => (.ready, tokens.setWaiting name waiter .over)
      | .over => (.gone, tokens)

def states (tokens : Tokens) : List (String × Bool) :=
  tokens.names.entries.map (fun entry => (entry.1, tokens.isFired entry.2))

end Tokens

end Redline
