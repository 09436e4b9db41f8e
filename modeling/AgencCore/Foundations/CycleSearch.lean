import AgencCore.Foundations.OrderedMap

/-
  Depth-first search for a cycle with three colours.

  A node is white before its visit, gray while its descendants are visited and black afterwards;
  meeting a gray node closes a cycle. The recursion carries a fuel argument. Every call paints a
  white node, so one unit of fuel per node is enough.
-/

namespace Foundations

namespace CycleSearch

section

inductive Color where
  | white
  | gray
  | black
deriving DecidableEq

variable {κ σ : Type}

/- Visit nodes in order until a visit reports a cycle. -/
def visitAll (visit : κ → σ → Option (Bool × σ)) : List κ → σ → Option (Bool × σ)
| [], c => some (false, c)
| k :: rest, c =>
  match visit k c with
  | none => none
  | some (true, c') => some (true, c')
  | some (false, c') => visitAll visit rest c'

variable [DecidableEq κ]

/- An uncoloured node counts as white. -/
def colorOf (color : OrderedMap κ Color) (k : κ) : Color := (color.get? k).getD .white

def dfs (adjacency : κ → List κ) : Nat → κ → OrderedMap κ Color → Option (Bool × OrderedMap κ Color)
| 0, _, _ => none
| fuel + 1, node, color => match visitAll (fun next c =>
        match colorOf c next with
        | .gray => some (true, c)
        | .white => dfs adjacency fuel next c
        | .black => some (false, c)) (adjacency node) (color.set node .gray) with
  | none => none
  | some (true, c) => some (true, c)
  | some (false, c) => some (false, c.set node .black)

/- Start a search from every node that is still white. -/
def search (adjacency : κ → List κ) (nodes : List κ) : Option (Bool × OrderedMap κ Color) :=
  visitAll (fun node c =>
      match colorOf c node with
      | .white => dfs adjacency nodes.length node c
      | _ => some (false, c)) nodes (OrderedMap.ofList (nodes.map (fun k => (k, .white))))

end

end CycleSearch

end Foundations
