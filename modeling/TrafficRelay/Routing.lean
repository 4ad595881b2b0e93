import TrafficRelay.Counter
import TrafficRelay.Ident

/-!
# Routing

An allowed record goes to every output, to the outputs in turn, or to the one
output that its session is bound to.  Session affinity depends on the hash of
the session key alone, so every router with as many outputs agrees on it.
-/

namespace TrafficRelay

namespace SessionKey

/-- The hash of no bytes. -/
def hashBasis : UInt64 := 0xcbf29ce484222325

/-- The odd factor by which each round of the hash multiplies. -/
def hashFactor : UInt64 := 0x100000001b3

def hashStep (state : UInt64) (byte : UInt8) : UInt64 :=
  (state ^^^ byte.toUInt64) * hashFactor

def hashFrom (state : UInt64) (bytes : Bytes) : UInt64 := bytes.foldl hashStep state

/-- A 64-bit hash that is the same in every process. -/
def hash (session : SessionKey) : UInt64 := hashFrom hashBasis session.bytes

/-- The output that a session is bound to among this many. -/
def boundOutput (session : SessionKey) (outputs : Nat) : Nat :=
  session.hash.toNat % outputs

end SessionKey

/-- How the outputs for a record are chosen. -/
inductive Policy where
  | broadcast
  | roundRobin
  | sessionAffinity
  deriving DecidableEq, Repr, Inhabited

/-- A policy and the number of turns taken under it. -/
structure Router where
  policy : Policy
  turns : Counter
  deriving DecidableEq, Repr

namespace Router

def ofPolicy (policy : Policy) : Router := ⟨policy, .zero⟩

/-- The outputs that a record of this session goes to.  Only a choice in turn
moves the counter, and with no outputs there is nothing to choose. -/
def select {α : Type} (router : Router) (session : SessionKey) (outputs : List α) :
    List α × Router :=
  if outputs.isEmpty then ([], router)
  else match router.policy with
    | .broadcast => (outputs, router)
    | .roundRobin =>
        (outputs[router.turns.toNat % outputs.length]?.toList,
          { router with turns := router.turns.increment })
    | .sessionAffinity =>
        (outputs[session.boundOutput outputs.length]?.toList, router)

end Router

end TrafficRelay
