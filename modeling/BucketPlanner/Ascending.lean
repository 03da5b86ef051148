/-!
# Association lists in ascending order of their keys

`put` keeps a list of pairs in ascending order of the first components, one pair for each key; a
later value takes the place of an earlier one. `find?` looks a key up.
-/

namespace BucketPlanner.Ascending

variable {α β : Type} [Ord α]

/-- Puts a value under a key, in the place of the value that the key had. -/
def put (key : α) (value : β) : List (α × β) → List (α × β)
  | [] => [(key, value)]
  | (k, v) :: rest =>
    match compare key k with
    | .lt => (key, value) :: (k, v) :: rest
    | .eq => (key, value) :: rest
    | .gt => (k, v) :: put key value rest

/-- The value under a key. -/
def find? (key : α) : List (α × β) → Option β
  | [] => none
  | (k, v) :: rest => if compare key k = .eq then some v else find? key rest

@[simp] theorem find?_nil (key : α) : find? key ([] : List (α × β)) = none := rfl

end BucketPlanner.Ascending
