/-
  FrameGraph.Ron.Quoted: text, characters and bytes between quotes.

  An escape stands for one character or, in bytes, for one byte. In text a run of up to four
  two-digit escapes may spell the UTF-8 form of one character; a lone character takes only an
  ASCII one. Code points can be escaped everywhere but in a lone byte. Raw text ends at a quote
  followed by as many hash marks as it began with, and knows no escapes. Text that never ends
  is told apart from text with a wrong escape.
-/

import FrameGraph.Uuid

namespace FrameGraph.Ron.Quoted

open Uuid (hexValue?)

/-- What is between the quotes. -/
inductive Content where
  | text
  | character
  | bytes
  | byte
  deriving DecidableEq, Repr

inductive Flaw where
  | unclosed
  | malformed
  deriving DecidableEq, Repr

/-! ## Escapes -/

def simpleEscape? (c : Char) : Option Char :=
  if c = '\'' ∨ c = '"' ∨ c = '\\' then some c
  else if c = 'n' then some '\n'
  else if c = 'r' then some '\r'
  else if c = 't' then some '\t'
  else if c = '0' then some '\x00'
  else none

def hexByte? (a b : Char) : Option Nat := do
  return (← hexValue? a) * 16 + (← hexValue? b)

/-- Two-digit escapes at the start of a text, at most `count` of them. -/
def hexRun : Nat → List Char → List Nat
  | count + 1, '\\' :: 'x' :: a :: b :: cs =>
    match hexByte? a b with
    | some n => n :: hexRun count cs
    | none => []
  | _, _ => []

def scalar? (n : Nat) : Option Char :=
  if n.isValidChar then some (Char.ofNat n) else none

/-- How many bytes follow the first one in the UTF-8 form of a character. -/
def utf8Tail? (first : Nat) : Option Nat :=
  if first < 0x80 then some 0
  else if 0xC2 ≤ first ∧ first ≤ 0xDF then some 1
  else if 0xE0 ≤ first ∧ first ≤ 0xEF then some 2
  else if 0xF0 ≤ first ∧ first ≤ 0xF4 then some 3
  else none

/-- The character that some bytes spell, if they spell exactly one. -/
def utf8Char? (bytes : List Nat) : Option Char :=
  match (String.fromUTF8? ⟨(bytes.map UInt8.ofNat).toArray⟩).map String.toList with
  | some [c] => some c
  | _ => none

/-- Reads the escapes that spell one character; the text begins with a two-digit escape. -/
def hexEscape? (cs : List Char) : Option (Char × List Char) :=
  let bytes := hexRun 4 cs
  match bytes.head?.bind utf8Tail? with
  | none => none
  | some tail =>
    if bytes.length ≤ tail then none
    else (utf8Char? (bytes.take (tail + 1))).map fun c => (c, cs.drop (4 * (tail + 1)))

/-- Reads the two digits of an escape for a number below a bound. -/
def byteEscape? (bound : Nat) : List Char → Option (Char × List Char)
  | a :: b :: cs => ((hexByte? a b).filter (· < bound)).map fun n => (Char.ofNat n, cs)
  | _ => none

/-- Reads up to six hexadecimal digits and the closing brace of a code point. -/
def codePoint? (cs : List Char) : Option (Char × List Char) :=
  let digits := (cs.take 6).takeWhile (· != '\x7d')
  match cs.drop digits.length with
  | '\x7d' :: rest =>
    if digits.isEmpty then none
    else
      ((digits.mapM hexValue?).bind fun values => scalar? (values.foldl (fun n d => n * 16 + d) 0)).map
        fun c => (c, rest)
  | _ => none

/-- Reads what follows the backslash of an escape. -/
def escape? (content : Content) : List Char → Option (Char × List Char)
  | 'x' :: cs =>
    match content with
    | .text => hexEscape? ('\\' :: 'x' :: cs)
    | .character => byteEscape? 0x80 cs
    | .bytes | .byte => byteEscape? 0x100 cs
  | 'u' :: '\x7b' :: cs => if content = .byte then none else codePoint? cs
  | c :: cs => (simpleEscape? c).map fun e => (e, cs)
  | [] => none

theorem hexEscape?_length {cs : List Char} {r : Char × List Char} (h : hexEscape? cs = some r) :
    r.2.length ≤ cs.length - 1 := by
  simp only [hexEscape?] at h
  split at h
  · cases h
  · split at h
    · cases h
    · obtain ⟨_, _, rfl⟩ := Option.map_eq_some_iff.1 h
      simp only [List.length_drop]
      omega

theorem byteEscape?_length {bound : Nat} {cs : List Char} {r : Char × List Char}
    (h : byteEscape? bound cs = some r) : r.2.length ≤ cs.length := by
  unfold byteEscape? at h
  split at h
  · obtain ⟨_, _, rfl⟩ := Option.map_eq_some_iff.1 h
    simp only [List.length_cons]
    omega
  · cases h

theorem codePoint?_length {cs : List Char} {r : Char × List Char} (h : codePoint? cs = some r) :
    r.2.length ≤ cs.length := by
  simp only [codePoint?] at h
  split at h
  · rename_i rest found
    have dropped := congrArg List.length found
    simp only [List.length_drop, List.length_cons] at dropped
    split at h
    · cases h
    · obtain ⟨_, _, rfl⟩ := Option.map_eq_some_iff.1 h
      dsimp only
      omega
  · cases h

theorem escape?_length {content : Content} {cs : List Char} {r : Char × List Char}
    (h : escape? content cs = some r) : r.2.length ≤ cs.length := by
  unfold escape? at h
  split at h
  · rename_i cs
    cases content
    · simpa using hexEscape?_length h
    all_goals exact Nat.le_succ_of_le (byteEscape?_length h)
  · split at h
    · cases h
    · have := codePoint?_length h
      simp only [List.length_cons]
      omega
  · obtain ⟨_, _, rfl⟩ := Option.map_eq_some_iff.1 h
    simp
  · cases h

/-! ## Between double quotes -/

/-- Reads up to the closing quote, which is dropped. -/
def body (content : Content) (cs : List Char) : Except Flaw (List Char × List Char) :=
  match cs with
  | [] => .error .unclosed
  | '"' :: cs => .ok ([], cs)
  | '\\' :: cs =>
    match _ : escape? content cs with
    | none => .error (if cs.contains '"' then .malformed else .unclosed)
    | some (e, after) => (body content after).map fun r => (e :: r.1, r.2)
  | c :: cs => (body content cs).map fun r => (c :: r.1, r.2)
termination_by cs.length
decreasing_by
  · exact Nat.lt_succ_of_le (escape?_length (r := (e, after)) (by assumption))
  · exact Nat.lt_succ_self _

/-- Reads raw text up to a quote followed by the closing hash marks. -/
def rawBody (close : List Char) : List Char → Except Flaw (List Char × List Char)
  | [] => .error .unclosed
  | c :: cs =>
    if c = '"' ∧ close.isPrefixOf cs then .ok ([], cs.drop close.length)
    else (rawBody close cs).map fun r => (c :: r.1, r.2)

/-- Reads raw text from its opening hash marks on. -/
def raw (cs : List Char) : Except Flaw (List Char × List Char) :=
  let close := cs.takeWhile (· == '#')
  match cs.dropWhile (· == '#') with
  | '"' :: cs => rawBody close cs
  | _ => .error .malformed

def text : List Char → Except Flaw (List Char × List Char)
  | '"' :: cs => body .text cs
  | 'r' :: cs => raw cs
  | _ => .error .malformed

def bytes : List Char → Except Flaw (List Char × List Char)
  | 'b' :: '"' :: cs => body .bytes cs
  | 'b' :: 'r' :: cs => raw cs
  | _ => .error .malformed

/-! ## Between single quotes -/

def closed? (r : Char × List Char) : Option (Char × List Char) :=
  match r.2 with
  | '\'' :: cs => some (r.1, cs)
  | _ => none

/-- Reads one character from behind its opening quote on. -/
def single? (content : Content) : List Char → Option (Char × List Char)
  | '\\' :: cs => (escape? content cs).bind closed?
  | c :: cs => closed? (c, cs)
  | [] => none

def character? : List Char → Option (Char × List Char)
  | '\'' :: cs => single? .character cs
  | _ => none

def byte? : List Char → Option (Char × List Char)
  | 'b' :: '\'' :: cs =>
    if cs.head?.any (0x80 ≤ ·.toNat) then none else single? .byte cs
  | _ => none

/-! ## What is left is no longer -/

theorem ok_of_map {α β ε : Type} {f : α → β} {x : Except ε α} {b : β} (h : x.map f = .ok b) :
    ∃ a, x = .ok a ∧ f a = b := by
  cases x with
  | error => cases h
  | ok a => exact ⟨a, rfl, Except.ok.inj h⟩

theorem body_length {content : Content} {cs : List Char} {r : List Char × List Char}
    (h : body content cs = .ok r) : r.2.length ≤ cs.length := by
  fun_induction body content cs generalizing r with
  | case1 => cases h
  | case2 => cases h; simp
  | case3 => cases h
  | case4 cs e after found ih =>
    obtain ⟨s, hs, rfl⟩ := ok_of_map h
    have inner : s.2.length ≤ after.length := ih hs
    have outer : after.length ≤ cs.length := escape?_length found
    simp only [List.length_cons]
    omega
  | case5 _ cs _ _ ih =>
    obtain ⟨s, hs, rfl⟩ := ok_of_map h
    have inner : s.2.length ≤ cs.length := ih hs
    exact Nat.le_succ_of_le inner

theorem rawBody_length {close cs : List Char} {r : List Char × List Char}
    (h : rawBody close cs = .ok r) : r.2.length ≤ cs.length := by
  fun_induction rawBody close cs generalizing r with
  | case1 => cases h
  | case2 =>
    cases h
    simp only [List.length_drop, List.length_cons]
    omega
  | case3 c cs _ ih =>
    obtain ⟨s, hs, rfl⟩ := ok_of_map h
    have inner : s.2.length ≤ cs.length := ih hs
    exact Nat.le_succ_of_le inner

theorem raw_length {cs : List Char} {r : List Char × List Char} (h : raw cs = .ok r) :
    r.2.length ≤ cs.length := by
  have shorter := (List.dropWhile_sublist (l := cs) (· == '#')).length_le
  simp only [raw] at h
  split at h
  · rename_i rest hd
    have := rawBody_length h
    simp only [hd, List.length_cons] at shorter
    omega
  · cases h

theorem text_length {cs : List Char} {r : List Char × List Char} (h : text cs = .ok r) :
    r.2.length ≤ cs.length := by
  unfold text at h
  split at h
  · exact Nat.le_succ_of_le (body_length h)
  · exact Nat.le_succ_of_le (raw_length h)
  · cases h

theorem bytes_length {cs : List Char} {r : List Char × List Char} (h : bytes cs = .ok r) :
    r.2.length ≤ cs.length := by
  unfold bytes at h
  split at h
  · exact Nat.le_succ_of_le (Nat.le_succ_of_le (body_length h))
  · exact Nat.le_succ_of_le (Nat.le_succ_of_le (raw_length h))
  · cases h

theorem closed?_length {x r : Char × List Char} (h : closed? x = some r) :
    r.2.length ≤ x.2.length := by
  unfold closed? at h
  split at h
  · rename_i found
    cases h
    simp [found]
  · cases h

theorem single?_length {content : Content} {cs : List Char} {r : Char × List Char}
    (h : single? content cs = some r) : r.2.length ≤ cs.length := by
  unfold single? at h
  split at h
  · obtain ⟨s, hs, h⟩ := Option.bind_eq_some_iff.1 h
    exact Nat.le_succ_of_le (Nat.le_trans (closed?_length h) (escape?_length hs))
  · exact Nat.le_succ_of_le (closed?_length h)
  · cases h

theorem character?_length {cs : List Char} {r : Char × List Char} (h : character? cs = some r) :
    r.2.length ≤ cs.length := by
  unfold character? at h
  split at h
  · exact Nat.le_succ_of_le (single?_length h)
  · cases h

theorem byte?_length {cs : List Char} {r : Char × List Char} (h : byte? cs = some r) :
    r.2.length ≤ cs.length := by
  unfold byte? at h
  split at h
  · split at h
    · cases h
    · exact Nat.le_succ_of_le (Nat.le_succ_of_le (single?_length h))
  · cases h

end FrameGraph.Ron.Quoted
