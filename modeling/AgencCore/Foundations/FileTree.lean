import AgencCore.Foundations.OrderedMap

/-
  File trees.

  A place is named by the steps that lead to it from the root, and a tree is a table of what stands
  at each place. Removing and moving take everything below a place along.
-/

namespace Foundations

open List

inductive FileEntry (α : Type) where
  | file (content : α)
  | directory
  | other
deriving DecidableEq

abbrev FileTree (α : Type) := List (List String × FileEntry α)

namespace FileTree

variable {α : Type}

def find (tree : FileTree α) (place : List String) : Option (FileEntry α) :=
  Entries.lookup place tree

def put (tree : FileTree α) (place : List String) (entry : FileEntry α) : FileTree α :=
  Entries.put place entry tree

def hasChildren (tree : FileTree α) (place : List String) : Bool :=
  tree.any (fun entry => place <+: entry.1 ∧ entry.1 ≠ place)

def remove (tree : FileTree α) (place : List String) : FileTree α :=
  tree.filter (fun entry => ¬ place <+: entry.1)

def move (tree : FileTree α) (source destination : List String) : FileTree α :=
  (tree.remove destination).map (fun entry =>
    if source <+: entry.1 then (destination ++ entry.1.drop source.length, entry.2)
    else entry)

/- Make the directories that are missing on a path. -/
def makeDirectory (tree : FileTree α) (path : List String) : FileTree α :=
  path.inits.foldl (fun tree place =>
      if (tree.find place).isSome then tree
      else tree.put place .directory) tree

/- Whatever is above an entry is a directory. -/
def WellFormed (tree : FileTree α) : Prop :=
  ∀ place below, below ≠ [] →
    (tree.find (place ++ below)).isSome → tree.find place = some .directory

variable (tree : FileTree α)

theorem find_put (place : List String) (entry : FileEntry α)
    (other : List String) : (tree.put place entry).find other = if place = other then some entry
      else tree.find other := Entries.lookup_put place other entry tree

theorem find_remove (place other : List String) :
    (tree.remove place).find other = if place <+: other then none else tree.find other := by
  unfold find remove
  induction tree with
  | nil => simp [Entries.lookup]
  | cons entry rest ih =>
    rw [filter_cons]
    by_cases hBelow : place <+: entry.1 <;> by_cases hHere : entry.1 = other <;>
      simp_all [Entries.lookup]

theorem find_move_destination {source destination : List String}
    (hBeside : ¬ destination <+: source) :
    (tree.move source destination).find destination = tree.find source := by
  unfold find move remove
  induction tree with
  | nil => rfl
  | cons entry rest ih =>
    rw [filter_cons]
    by_cases hHere : entry.1 = source
    · subst hHere
      simp [hBeside, Entries.lookup]
    · by_cases hBelow : destination <+: entry.1
      · simpa [hBelow, Entries.lookup, hHere] using ih
      · have hAway :
            (if source <+: entry.1 then (destination ++ entry.1.drop source.length, entry.2)
            else entry).1 ≠ destination := by
          split
          · rename_i hSource
            rcases hSource with ⟨rest, hRest⟩
            intro hEnd
            rw [← hRest, drop_left] at hEnd
            have hNil := List.append_right_eq_self.mp hEnd
            rw [hNil, append_nil] at hRest
            exact hHere hRest.symm
          · rintro rfl
            exact hBelow prefix_rfl
        simp only [hBelow, not_false_eq_true, decide_true,
          if_true, map_cons, Entries.lookup, hAway, if_false, hHere, ih]

theorem find_move_source {source destination : List String}
    (hBeside : ¬ destination <+: source) : (tree.move source destination).find source = none := by
  unfold find move
  induction tree.remove destination with
  | nil => rfl
  | cons entry rest ih =>
    have hAway : (if source <+: entry.1 then (destination ++ entry.1.drop source.length, entry.2)
        else entry).1 ≠ source := by
      split
      · intro hEnd
        exact hBeside (hEnd ▸ prefix_append _ _)
      · rename_i hSource
        rintro rfl
        exact hSource prefix_rfl
    simp only [map_cons, Entries.lookup, hAway, if_false, ih]

/- A place that is not on the path keeps what it has. -/
theorem find_makeDirectory {path place : List String}
    (hOff : ¬ place <+: path) : (tree.makeDirectory path).find place = tree.find place := by
  have hPlaces : ∀ step ∈ path.inits, step ≠ place := by
    rintro step hStep rfl
    exact hOff (mem_inits step path |>.mp hStep)
  unfold makeDirectory
  generalize path.inits = places at hPlaces
  induction places generalizing tree with
  | nil => rfl
  | cons step rest ih =>
    rw [foldl_cons, ih _ (fun other hOther => hPlaces other (mem_cons_of_mem _ hOther))]
    split
    · rfl
    · rw [find_put, if_neg (hPlaces step mem_cons_self)]

end FileTree

end Foundations
