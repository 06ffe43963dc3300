/-
  FrameGraph.Ron.Schema: what a text is expected to say, and reading it so.

  A schema says what may stand at each place, and the names of the types there. Reading
  follows the schema: the same text can mean different things at different places, above all
  where a dialect lets parentheses be left out. Fields come in any order; a field that nobody
  wants is passed over.
-/

import FrameGraph.Ron.Unknown
import FrameGraph.Ron.Value

namespace FrameGraph.Ron

mutual

inductive Schema where
  | bool
  | nat (suffix : String) (bits : Nat)
  | single
  | text
  | unit (type : String)
  | wrapped (type : String) (content : Schema)
  | option (content : Schema)
  | pair (item : Schema)
  | list (item : Schema)
  | map (key value : Schema)
  | record (type : String) (fields : List (String × Schema))
  | choice (cases : List (String × Case))

/-- What belongs to the name of a variant. -/
inductive Case where
  | plain
  | holding (content : Schema)
  | fields (fields : List (String × Schema))

end

namespace Reader

/-- Whether a value begins with the name of its type; it may begin with no other name. -/
def typeName (type : String) : Reader Bool := do
  if (← next?).any Text.isIdentifierPart then
    if (← name) = type then return true else fail
  else if (← mode).dialect.explicitNames then fail
  else return false

def unit (type : String) : Reader Unit := do
  if (← mode).bare then return ()
  else if ← typeName type then return ()
  else emptyParentheses

/-- One value between parentheses of its own, which the dialect may drop. -/
def wrapped {α : Type} (type : String) (content : Reader α) : Reader α := do
  let m ← mode
  if m.dialect.unwrapNewtypes || m.bare then setBare false (nested content)
  else
    let _ ← typeName type
    gap
    enclosed false content

/-- Named fields, of which the unknown ones are dropped. -/
def fields {α : Type} (bare : Bool) (field? : String → Option (Reader α)) :
    Reader (List (String × α)) := do
  let found ← bracketed '(' ')' bare <| keyed name fun key =>
    match field? key with
    | some value => (fun a => some (key, a)) <$> value
    | none => (fun _ => none) <$> unknown
  return found.filterMap id

def pair {α : Type} (item : Reader α) : Reader (List α) := do
  let found ← bracketed '(' ')' (← mode).bare (nested item)
  if found.length = 2 then return found else fail

end Reader

open Reader

mutual

def Schema.reader : Schema → Reader Value
  | .bool => Value.bool <$> Reader.bool
  | .nat suffix bits => Value.nat <$> unsigned suffix bits
  | .single => Value.single <$> binary32
  | .text => Value.text <$> Reader.text
  | .unit type => (fun _ => Value.unit) <$> Reader.unit type
  | .wrapped type content => Value.wrapped <$> Reader.wrapped type content.reader
  | .option content => Value.ofOption <$> Reader.option content.reader
  | .pair item => Value.tuple none <$> Reader.pair item.reader
  | .list item => Value.list <$> bracketed '[' ']' false (nested item.reader)
  | .map key value => Value.map <$> bracketed '\x7b' '\x7d' false
      (keyed key.reader fun k => (fun v => (k, v)) <$> value.reader)
  | .record type fields => do
    let bare := (← mode).bare
    unless bare do let _ ← typeName type
    gap
    Value.record none <$> Reader.fields bare (fieldReader? fields)
  | .choice cases => setBare false <| nested do
    gap
    let key ← nested name
    match caseReader? cases key with
    | some value => value
    | none => fail

def fieldReader? : List (String × Schema) → String → Option (Reader Value)
  | [], _ => none
  | (name, s) :: rest, key => if name = key then some s.reader else fieldReader? rest key

def caseReader? : List (String × Case) → String → Option (Reader Value)
  | [], _ => none
  | (name, c) :: rest, key => if name = key then some (c.reader name) else caseReader? rest key

def Case.reader : Case → String → Reader Value
  | .plain, key => return .word key
  | .holding content, key => do
    gap
    Value.variant key <$> enclosed (← mode).dialect.unwrapVariants content.reader
  | .fields fields, key => do
    gap
    Value.record (some key) <$> Reader.fields false (fieldReader? fields)

end

namespace Schema

def read? (s : Schema) (text : String) : Option Value := s.reader.readAll? text

end Schema

end FrameGraph.Ron
