import FirstFollow.Grammar.Basic
import FirstFollow.Number

/-! What may be handed in where a grammar is expected, and how such things are compared. -/

namespace FirstFollow

/-- A grammar, or a value of another type. Of lists and mappings only the type matters. -/
inductive Candidate where
  | grammar (g : Grammar)
  | null
  | truth (b : Bool)
  | whole (n : Int)
  /-- A number of limited precision. -/
  | float (x : Number)
  | text (s : String)
  | list
  | mapping

namespace Candidate

def ofNumeral (n : Numeral) : Candidate :=
  if n.isWhole then .whole (n.signed n.digits) else .float (.nearest n)

def typeName : Candidate → String
  | grammar _ => "Grammar"
  | null => "NoneType"
  | truth _ => "bool"
  | whole _ => "int"
  | float _ => "float"
  | text _ => "str"
  | list => "list"
  | mapping => "dict"

def grammar? : Candidate → Except Error Grammar
  | grammar g => .ok g
  | c => .error (.notAGrammar c.typeName)

/-- The events of making a candidate. -/
def events : Candidate → List Event
  | grammar g => [g.made]
  | _ => []

/-- The candidates in turn up to the first one that cannot be made, and the events on the way. -/
def gather : List (Except Error Candidate) → Except Error (List Candidate) × List Event
  | [] => (.ok [], [])
  | .error e :: _ => (.error e, [])
  | .ok c :: rest =>
    let (result, events) := gather rest
    (result.map (c :: ·), c.events ++ events)

/-- Truth values count as zero and one. -/
def number? : Candidate → Option Number
  | truth b => some (.ofInt (if b then 1 else 0))
  | whole n => some (.ofInt n)
  | float x => some x
  | _ => none

/-- Equality by value; of grammars the order of declaration does not count. -/
def same : Candidate → Candidate → Bool
  | grammar g, grammar h => decide (g.Same h)
  | null, null => true
  | text s, text t => s == t
  | a, b =>
    match a.number?, b.number? with
    | some x, some y => x.same y
    | _, _ => false

/-- Whether two members of a set count as one. Grammars do when their declarations also stand in
the same order. There is one undefined number. -/
def counted : Candidate → Candidate → Bool
  | grammar g, grammar h => decide (g = h)
  | float .undefined, float .undefined => true
  | a, b => a.same b

/-- Lists and mappings cannot be members of a set. -/
def checkMember : Candidate → Except Error Unit
  | list => .error (.notAMember (typeName list))
  | mapping => .error (.notAMember (typeName mapping))
  | _ => .ok ()

/-- The size of the set of the candidates. -/
def distinct (cs : List Candidate) : Except Error Nat := do
  cs.forM checkMember
  return (cs.eraseDupsBy fun a b => a.counted b).length

/-- How each candidate compares with each. -/
def comparisons (cs : List Candidate) : List (List Bool) := cs.map fun a => cs.map a.same

end Candidate

end FirstFollow
