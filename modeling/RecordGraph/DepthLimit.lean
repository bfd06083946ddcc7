/-!
# Depth limits

Texts can nest without end, for one may name itself. A depth limit turns such a text into an error.
-/

namespace RecordGraph

structure DepthLimit where
  max : Nat
deriving DecidableEq, Repr

structure DepthExceeded where
  depth : Nat
  max : Nat
deriving DecidableEq, Repr

def DepthExceeded.message (excess : DepthExceeded) : String :=
  "nesting depth " ++ excess.depth.repr ++ " exceeds the limit of " ++ excess.max.repr

namespace DepthLimit

def paths : DepthLimit := ⟨256⟩

def frames : DepthLimit := ⟨1024⟩

def padding : DepthLimit := ⟨65536⟩

instance : Inhabited DepthLimit := ⟨paths⟩

def allows (limit : DepthLimit) (depth : Nat) : Bool :=
  depth ≤ limit.max

def check (limit : DepthLimit) (depth : Nat) : Except DepthExceeded Unit :=
  if limit.allows depth then .ok () else .error ⟨depth, limit.max⟩

theorem allows_iff (limit : DepthLimit) (depth : Nat) :
    limit.allows depth = true ↔ depth ≤ limit.max := by
  simp [allows]

end DepthLimit
end RecordGraph
