import SourceIndex.Text.Utf8

/-! The Jaro similarity of two texts, from 0 for nothing in common to 1 for equality.
Characters match when they are equal and not farther apart than half of the longer
text; of the matched ones, half of those that stand in another order are held against
the pair. The three shares are added in a fixed order, so the result is the same
double everywhere. -/
namespace SourceIndex.Text.Similarity

/-- Mark the first unmarked place of `target` in the window `[low, high)`. -/
def claim (target : Char) (low high : Nat) : (place : Nat) → List (Char × Bool) → Option (List (Char × Bool))
  | _, [] => none
  | place, (char, taken) :: rest =>
    if high ≤ place then none
    else if low ≤ place ∧ char = target ∧ taken = false then some ((char, true) :: rest)
    else (claim target low high (place + 1) rest).map ((char, taken) :: ·)

/-- The matched characters of the first text, and the second text with its marks. -/
def pair (reach : Nat) : (place : Nat) → Text → List (Char × Bool) → Text × List (Char × Bool)
  | _, [], marked => ([], marked)
  | place, char :: rest, marked =>
    match claim char (place - reach) (place + reach + 1) 0 marked with
    | some marked =>
      let (matched, marked) := pair reach (place + 1) rest marked
      (char :: matched, marked)
    | none => pair reach (place + 1) rest marked

def jaro (first second : Text) : Float :=
  if first = [] ∧ second = [] then 1.0
  else
    let reach := max first.length second.length / 2 - 1
    let (matched, marked) := pair reach 0 first (second.map (·, false))
    let other := (marked.filter Prod.snd).map Prod.fst
    let moved := ((matched.zip other).filter fun (a, b) => a != b).length / 2
    if matched = [] then 0.0
    else
      let count := Float.ofNat matched.length
      (count / Float.ofNat first.length + count / Float.ofNat second.length +
        Float.ofNat (matched.length - moved) / count) / 3.0

/-- Texts at least this similar may have been meant. -/
def threshold : Float := 0.7

/-- The most similar of some texts above the threshold, the last one of equals. -/
def best? (text : Text) (known : List (Text × α)) : Option α :=
  (known.foldl (fun (best : Option (Float × α)) (candidate : Text × α) =>
    let score := jaro text candidate.1
    if score > threshold then
      match best with
      | some (held, _) => if held > score then best else some (score, candidate.2)
      | none => some (score, candidate.2)
    else best) none).map Prod.snd

end SourceIndex.Text.Similarity
