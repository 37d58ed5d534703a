import ConsentGate.Node
import ConsentGate.Text.Run

/-!
# Paths

A path names a place in a settings document by keys and list positions: a key, then any number of
keys behind a dot and of positions between square brackets. Keys in paths are made of ASCII letters,
digits, `_` and `-`; a negative position counts from the end.

Results:

* `length_position`: a position uses up text, so that reading a path ends.
* `ofText?_keys`: keys with dots between them write the path through them.
-/

namespace ConsentGate

/-- One step of a path. -/
inductive PathStep where
  | key (k : String)
  | position (i : Int)
  deriving DecidableEq

/-- A place in a settings document. -/
abbrev Path := List PathStep

namespace Path

/-- A character of a key in a path. -/
def isKeyChar (c : Char) : Bool :=
  ('a' ≤ c && c ≤ 'z') || ('A' ≤ c && c ≤ 'Z') || c.isDigit || c == '_' || c == '-'

/-- A blank inside the brackets of a position. -/
def isGap (c : Char) : Bool := c == ' ' || c == '\t'

/-- The sign of a position: `true` for minus. -/
def sign : List Char → Bool × List Char
  | '-' :: s => (true, s)
  | s => (false, s)

/-- The integer of a sign and digits, if there are digits and it fits into 64 bits. -/
def signed? (negative : Bool) (digits : List Char) : Option Int :=
  let n : Int := Nat.ofDigitChars 10 digits 0
  let i := if negative then -n else n
  if digits ≠ [] ∧ Int64.minValue.toInt ≤ i ∧ i ≤ Int64.maxValue.toInt then some i else none

/-- What follows a closing bracket. -/
def afterBracket? : List Char → Option (List Char)
  | ']' :: after => some after
  | _ => none

/-- The position that a text starts with, behind the opening bracket, and what follows the closing
one. -/
def position? (s : List Char) : Option (Int × List Char) := do
  let signed := sign (s.dropWhile isGap)
  let i ← signed? signed.1 (signed.2.takeWhile Char.isDigit)
  let after ← afterBracket? ((signed.2.dropWhile Char.isDigit).dropWhile isGap)
  return (i, after)

theorem length_sign (s : List Char) : (sign s).2.length ≤ s.length := by
  unfold sign
  split <;> simp

theorem length_dropWhile_le (p : Char → Bool) (s : List Char) :
    (s.dropWhile p).length ≤ s.length := (List.dropWhile_sublist p).length_le

theorem length_afterBracket {s after : List Char} (h : afterBracket? s = some after) :
    after.length < s.length := by
  unfold afterBracket? at h
  split at h
  · obtain rfl := Option.some.inj h
    simp
  · simp at h

/-- A position uses up text. -/
theorem length_position {s after : List Char} {i : Int} (h : position? s = some (i, after)) :
    after.length < s.length := by
  obtain ⟨_, -, hi⟩ := Option.bind_eq_some_iff.1 h
  obtain ⟨_, hb, he⟩ := Option.bind_eq_some_iff.1 hi
  obtain ⟨-, rfl⟩ := Prod.mk.inj (Option.some.inj he)
  have h₁ := length_dropWhile_le isGap s
  have h₂ := length_sign (s.dropWhile isGap)
  have h₃ := length_dropWhile_le Char.isDigit (sign (s.dropWhile isGap)).2
  have h₄ := length_dropWhile_le isGap ((sign (s.dropWhile isGap)).2.dropWhile Char.isDigit)
  have h₅ := length_afterBracket hb
  omega

/-- The steps behind the first key. -/
def steps? : List Char → Option Path
  | [] => some []
  | '.' :: rest =>
    match rest.takeWhile isKeyChar with
    | [] => none
    | key => (steps? (rest.dropWhile isKeyChar)).map (.key (.ofList key) :: ·)
  | '[' :: rest =>
    match _h : position? rest with
    | some (i, after) => (steps? after).map (.position i :: ·)
    | none => none
  | _ => none
termination_by s => s.length
decreasing_by
  · have := length_dropWhile_le isKeyChar rest
    simp
    omega
  · have := length_position _h
    simp
    omega

/-- The path that a text writes. -/
def ofText? (text : String) : Option Path :=
  match text.toList.takeWhile isKeyChar with
  | [] => none
  | key => (steps? (text.toList.dropWhile isKeyChar)).map (.key (.ofList key) :: ·)

/-- A key that can stand in a path. -/
def IsKey (key : String) : Prop := key ≠ "" ∧ key.toList.all isKeyChar = true

instance (key : String) : Decidable (IsKey key) := inferInstanceAs (Decidable (_ ∧ _))

/-- Keys behind dots. -/
def dots (keys : List String) : List Char := keys.flatMap fun key => '.' :: key.toList

theorem dots_stop (keys : List String) (c : Char) (h : (dots keys).head? = some c) :
    isKeyChar c = false := by
  cases keys with
  | nil => cases h
  | cons key keys =>
    cases h
    decide

theorem IsKey.takeWhile {key : String} (h : IsKey key) (keys : List String) :
    (key.toList ++ dots keys).takeWhile isKeyChar = key.toList :=
  Text.takeWhile_append_of_stops (List.all_eq_true.1 h.2) (dots_stop keys)

theorem IsKey.dropWhile {key : String} (h : IsKey key) (keys : List String) :
    (key.toList ++ dots keys).dropWhile isKeyChar = dots keys :=
  Text.dropWhile_append_of_stops (List.all_eq_true.1 h.2) (dots_stop keys)

theorem steps?_dots {keys : List String} (h : ∀ key ∈ keys, IsKey key) :
    steps? (dots keys) = some (keys.map .key) := by
  induction keys with
  | nil => rw [dots, List.flatMap_nil, steps?, List.map_nil]
  | cons key keys ih =>
    have hkey := h key List.mem_cons_self
    have hrest := ih fun k hk => h k (List.mem_cons_of_mem _ hk)
    have hdots : dots (key :: keys) = '.' :: (key.toList ++ dots keys) := rfl
    have hne : key.toList ≠ [] := fun hnil => hkey.1 (String.toList_eq_nil_iff.1 hnil)
    rw [hdots, steps?, hkey.takeWhile]
    split
    · rename_i hnil
      exact absurd hnil hne
    · rw [hkey.dropWhile, hrest, String.ofList_toList]
      rfl

/-- Keys with dots between them write the path through them. -/
theorem ofText?_keys {key : String} {keys : List String} (h : ∀ k ∈ key :: keys, IsKey k) :
    ofText? (.ofList (key.toList ++ dots keys)) = some ((key :: keys).map .key) := by
  have hkey := h key List.mem_cons_self
  have hrest := steps?_dots fun k hk => h k (List.mem_cons_of_mem _ hk)
  have hne : key.toList ≠ [] := fun hnil => hkey.1 (String.toList_eq_nil_iff.1 hnil)
  rw [ofText?, String.toList_ofList, hkey.takeWhile]
  split
  · rename_i hnil
    exact absurd hnil hne
  · rw [hkey.dropWhile, hrest, String.ofList_toList]
    rfl

end Path

end ConsentGate
