import Choreo.Duration

/-!
# Regions

A region is a run of commands under one heading. Commands under no heading form regions without a
name. A region whose heading carries the mark `:` is played only when it is asked for.
-/

namespace Choreo

structure Region where
  /-- The name without its mark, empty when there is no heading. -/
  name : String
  named : Bool
  /-- Whether the commands stand under no heading. -/
  unheaded : Bool
  startLine : Nat
  endLine : Nat
  wait : Duration
deriving DecidableEq

namespace Region

def start (name : String) (named : Bool) (line : Nat) : Region :=
  { name, named, unheaded := name == "", startLine := line, endLine := line, wait := .zero }

def absorb (r : Region) (line : Nat) (wait : Duration) : Region :=
  { r with startLine := min r.startLine line, endLine := max r.endLine line, wait := r.wait + wait }

def eligible (r : Region) : Bool := !r.named && !r.unheaded

end Region

end Choreo
