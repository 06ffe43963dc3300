/-
  FrameGraph.Ron.Reader: reading a text from its start, piece by piece.

  A reader takes a part of a text and leaves the rest, which is no longer than the text was;
  so a list of parts, each followed by a comma, comes to an end. What is read depends on the
  dialect, on how much deeper the text may nest, and on whether a value stands bare between
  the parentheses of the option or variant that holds it.
-/

import FrameGraph.Ron.Gap
import FrameGraph.Ron.Quoted
import FrameGraph.Ron.Word

namespace FrameGraph.Ron

/-- What the attributes of a document allow or ask for. -/
structure Dialect where
  implicitSome : Bool
  unwrapNewtypes : Bool
  unwrapVariants : Bool
  explicitNames : Bool
  deriving DecidableEq, Repr

namespace Dialect

def plain : Dialect := ⟨false, false, false, false⟩

def enable? (d : Dialect) (name : String) : Option Dialect :=
  if name = "implicit_some" then some { d with implicitSome := true }
  else if name = "unwrap_newtypes" then some { d with unwrapNewtypes := true }
  else if name = "unwrap_variant_newtypes" then some { d with unwrapVariants := true }
  else if name = "explicit_struct_names" then some { d with explicitNames := true }
  else none

end Dialect

structure Mode where
  dialect : Dialect
  depth : Nat
  bare : Bool

structure Reader (α : Type) where
  run : Mode → List Char → Option (α × List Char)
  length_le {m : Mode} {cs : List Char} {r : α × List Char} :
    run m cs = some r → r.2.length ≤ cs.length

namespace Reader

variable {α β κ : Type}

instance : Monad Reader where
  pure a := ⟨fun _ cs => some (a, cs), fun h => by cases h; exact Nat.le_refl _⟩
  bind x f := ⟨fun m cs => (x.run m cs).bind fun r => (f r.1).run m r.2, fun h => by
    obtain ⟨r, hr, h⟩ := Option.bind_eq_some_iff.1 h
    exact Nat.le_trans ((f r.1).length_le h) (x.length_le hr)⟩

def fail : Reader α := ⟨fun _ _ => none, nofun⟩

def mode : Reader Mode := ⟨fun m cs => some (m, cs), fun h => by cases h; exact Nat.le_refl _⟩

/-- What is left of the text; nothing is taken. -/
def rest : Reader (List Char) :=
  ⟨fun _ cs => some (cs, cs), fun h => by cases h; exact Nat.le_refl _⟩

def take (f : List Char → Option (α × List Char))
    (le : ∀ {cs r}, f cs = some r → r.2.length ≤ cs.length) : Reader α :=
  ⟨fun _ => f, le⟩

def skip (f : List Char → Option (List Char))
    (le : ∀ {cs r}, f cs = some r → r.length ≤ cs.length) : Reader Unit :=
  take (fun cs => (f cs).map fun r => ((), r)) fun h => by
    obtain ⟨r, hr, rfl⟩ := Option.map_eq_some_iff.1 h
    exact le hr

def inMode (change : Mode → Mode) (x : Reader α) : Reader α :=
  ⟨fun m => x.run (change m), x.length_le⟩

/-- Says of the value that is read whether it stands bare. -/
def setBare (bare : Bool) : Reader α → Reader α := inMode fun m => { m with bare }

/-- One level deeper, if there is one. -/
def nested (x : Reader α) : Reader α := do
  if (← mode).depth = 0 then fail else inMode (fun m => { m with depth := m.depth - 1 }) x

/-! ## Punctuation and words -/

def gap : Reader Unit := skip dropGap? dropGap?_length

def dropChar? (c : Char) : List Char → Option (List Char)
  | d :: cs => if d = c then some cs else none
  | [] => none

theorem dropChar?_length {c : Char} {cs r : List Char} (h : dropChar? c cs = some r) :
    r.length < cs.length := by
  unfold dropChar? at h
  split at h
  · split at h <;> cases h
    exact Nat.lt_succ_self _
  · cases h

def char (c : Char) : Reader Unit := skip (dropChar? c) fun h => Nat.le_of_lt (dropChar?_length h)

def next? : Reader (Option Char) := List.head? <$> rest

def name : Reader String := take name? name?_length

/-- Whether the text goes on with a keyword, which is then taken. -/
def keyword (word : String) : Reader Bool := do
  if (dropKeyword? word (← rest)).isSome then
    skip (dropKeyword? word) dropKeyword?_length
    return true
  else return false

/-! ## Parts with commas between them -/

/-- Takes a comma with the gaps around it, if there is one, and the gap in any case. -/
def comma? (cs : List Char) : Option (Bool × List Char) :=
  match dropGap? cs with
  | none => none
  | some (',' :: cs) => (dropGap? cs).map fun r => (true, r)
  | some cs => some (false, cs)

theorem comma?_length {cs : List Char} {r : Bool × List Char} (h : comma? cs = some r) :
    r.2.length ≤ cs.length := by
  unfold comma? at h
  split at h
  · cases h
  · rename_i found
    obtain ⟨s, hs, rfl⟩ := Option.map_eq_some_iff.1 h
    exact Nat.le_trans (dropGap?_length hs) (Nat.le_of_succ_le (dropGap?_length found))
  · rename_i found
    cases h
    exact dropGap?_length found

theorem comma?_true_length {cs r : List Char} (h : comma? cs = some (true, r)) :
    r.length < cs.length := by
  unfold comma? at h
  split at h
  · cases h
  · rename_i found
    obtain ⟨s, hs, h⟩ := Option.map_eq_some_iff.1 h
    cases h
    exact Nat.lt_of_le_of_lt (dropGap?_length hs) (dropGap?_length found)
  · cases h

def comma : Reader Bool := take comma? comma?_length

/-- Parts up to a closing bracket, which is left. A comma stands between any two of them, and
one may follow the last. -/
def readParts (close : Char) (part : Reader α) (m : Mode) (cs : List Char) :
    Option (List α × List Char) :=
  match _ : dropGap? cs with
  | none => none
  | some r =>
    if r.head? = some close then some ([], r)
    else
      match _ : part.run m r with
      | none => none
      | some (a, s) =>
        match _ : comma? s with
        | none => none
        | some (false, u) => if u.head? = some close then some ([a], u) else none
        | some (true, u) => (readParts close part m u).map fun r => (a :: r.1, r.2)
termination_by cs.length
decreasing_by
  rename_i skipped _ taken separated
  have first : r.length ≤ cs.length := dropGap?_length skipped
  have second : s.length ≤ r.length := part.length_le taken
  have third : u.length < s.length := comma?_true_length separated
  omega

theorem readParts_length {close : Char} {part : Reader α} {m : Mode} {cs : List Char}
    {r : List α × List Char} (h : readParts close part m cs = some r) :
    r.2.length ≤ cs.length := by
  fun_induction readParts close part m cs generalizing r with
  | case1 => cases h
  | case2 cs s skipped => cases h; exact dropGap?_length skipped
  | case3 => cases h
  | case4 => cases h
  | case5 _ _ skipped _ _ _ taken _ separated =>
    cases h
    exact Nat.le_trans (comma?_length separated)
      (Nat.le_trans (part.length_le taken) (dropGap?_length skipped))
  | case6 => cases h
  | case7 _ _ skipped _ _ _ taken u separated _ =>
    rename_i ih
    obtain ⟨s, hs, rfl⟩ := Option.map_eq_some_iff.1 h
    have inner : s.2.length ≤ u.length := ih hs
    exact Nat.le_trans inner (Nat.le_trans (comma?_length separated)
      (Nat.le_trans (part.length_le taken) (dropGap?_length skipped)))

def parts (close : Char) (part : Reader α) : Reader (List α) :=
  ⟨readParts close part, readParts_length⟩

/-- Parts between brackets, which a bare tuple or record does not have. -/
def bracketed (opening closing : Char) (bare : Bool) (part : Reader α) : Reader (List α) := do
  unless bare do char opening
  let found ← setBare false (nested (parts closing part))
  gap
  unless bare do char closing
  return found

/-- A key, a colon and the value that belongs to the key. -/
def keyed (key : Reader κ) (value : κ → Reader α) : Reader α := do
  let k ← nested key
  gap
  char ':'
  gap
  nested (value k)

/-- One value between parentheses, with a comma behind it or none. -/
def enclosed (bare : Bool) (content : Reader α) : Reader α := do
  char '('
  gap
  let a ← setBare bare (nested content)
  let _ ← comma
  char ')'
  return a

/-! ## The whole text -/

/-- Reads one attribute from behind its hash mark on. -/
def enabled (d : Dialect) : Reader Dialect := do
  gap
  char '!'
  gap
  char '['
  gap
  unless ← keyword "enable" do fail
  gap
  char '('
  gap
  let names ← parts ')' name
  char ')'
  gap
  char ']'
  gap
  match names with
  | [] => fail
  | _ =>
    match names.foldlM Dialect.enable? d with
    | some d => return d
    | none => fail

def readAttributes (m : Mode) (cs : List Char) : Option (Dialect × List Char) :=
  match cs with
  | '#' :: cs =>
    match _ : (enabled m.dialect).run m cs with
    | none => none
    | some (d, r) => readAttributes { m with dialect := d } r
  | cs => some (m.dialect, cs)
termination_by cs.length
decreasing_by
  rename_i taken
  exact Nat.lt_succ_of_le ((enabled m.dialect).length_le taken)

def depthLimit : Nat := 128

/-- Reads a text that holds one value, behind the attributes that set its dialect. -/
def readAll? (x : Reader α) (s : String) : Option α := do
  let start : Mode := ⟨.plain, depthLimit, false⟩
  let (dialect, cs) ← readAttributes start (← dropGap? s.toList)
  let (a, cs) ← x.run { start with dialect } cs
  if (← dropGap? cs).isEmpty then some a else none

end Reader

end FrameGraph.Ron
