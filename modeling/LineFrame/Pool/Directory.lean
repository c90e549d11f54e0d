import LineFrame.Pool.Basic

/-!
# Directories of pools

One pool for each endpoint.  Those who ask for the same endpoint share a pool, until it is shut
down.  Pools are named by numbers, and are kept for those who still use them after the directory has
forgotten them.
-/

namespace LineFrame

namespace Pool

structure Directory (κ τ : Type) where
  /-- The settings that new pools start from. -/
  config : Config := {}
  /-- All pools that were ever made, the first one first. -/
  pools : List (Pool κ τ) := []
  /-- The pools by host and port. -/
  current : List ((String × Nat) × Nat) := []

namespace Directory

variable {κ τ : Type} [Transport τ]

def endpointOf (host : String) (port : Nat) : String := s!"{host}:{port}"

/-- The pool of an endpoint that can still be used. -/
def find? (d : Directory κ τ) (host : String) (port : Nat) : Option Nat := do
  let i ← d.current.lookup (host, port)
  let p ← d.pools[i]?
  if p.shut then none else some i

/-- The pool of an endpoint.  It is made if there is none, or only one that is shut down. -/
def get (d : Directory κ τ) (dial : String → κ) (host : String) (port : Nat) :
    Nat × Directory κ τ :=
  match d.find? host port with
  | some i => (i, d)
  | none =>
    let i := d.pools.length
    let others := d.current.filter (·.1 != (host, port))
    (i, { d with
      pools := d.pools ++ [create (dial (endpointOf host port)) d.config]
      current := ((host, port), i) :: others })

/-- How many pools the directory has. -/
def size (d : Directory κ τ) : Nat := d.current.length

def update (d : Directory κ τ) (i : Nat) (f : Pool κ τ → Pool κ τ) : Directory κ τ :=
  { d with pools := d.pools.modify i f }

/-- Shuts every pool down and forgets it. -/
def shutdown (d : Directory κ τ) : Directory κ τ :=
  { d.current.foldl (fun d (_, i) => d.update i Pool.shutdown) d with current := [] }

end Directory

end Pool

end LineFrame
