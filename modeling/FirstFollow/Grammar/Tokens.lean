import FirstFollow.Convention
import FirstFollow.Grammar.Basic

/-! Grammars written in plain tokens. -/

namespace FirstFollow

/-- A sequence of tokens, listed or run together in a text of one-character tokens. -/
inductive Spelling where
  | tokens (ts : List String)
  | text (s : String)
  deriving DecidableEq

/-- The alternatives of a head, listed or run together in a text of alternatives of one
one-character token each. -/
inductive Alternatives where
  | listed (ds : List Spelling)
  | text (s : String)
  deriving DecidableEq

namespace Spelling

def characters (s : String) : List String := s.toList.map String.singleton

theorem characters_singleton (c : Char) :
    characters (String.singleton c) = [String.singleton c] := by
  simp [characters]

/-- A text has one token for each of its characters. -/
@[simp] theorem length_characters (s : String) : (characters s).length = s.length := by
  rw [characters, List.length_map, String.length_toList]

theorem length_of_mem_characters {s t : String} (h : t ∈ characters s) : t.length = 1 := by
  obtain ⟨c, -, rfl⟩ := List.mem_map.1 h
  simp

/-- The tokens of a text, run together, are the text. -/
theorem join_characters (s : String) : String.join (characters s) = s := by
  rw [← String.toList_inj, String.toList_join, characters, List.flatMap_map]
  simp

def toTokens : Spelling → List String
  | tokens ts => ts
  | text s => characters s

@[simp] theorem toTokens_tokens (ts : List String) : (tokens ts).toTokens = ts := rfl

@[simp] theorem toTokens_text (s : String) : (text s).toTokens = characters s := rfl

end Spelling

namespace Alternatives

def toTokens : Alternatives → List (List String)
  | listed ds => ds.map Spelling.toTokens
  | text s => (Spelling.characters s).map fun t => [t]

@[simp] theorem toTokens_listed (ds : List Spelling) :
    (listed ds).toTokens = ds.map Spelling.toTokens := rfl

/-- A text of alternatives lists its characters, each of them a text of one token. -/
theorem toTokens_text (s : String) :
    (text s).toTokens = (listed ((Spelling.characters s).map .text)).toTokens := by
  simp only [toTokens, List.map_map, Spelling.characters]
  refine List.map_congr_left fun c _ => ?_
  exact (Spelling.characters_singleton c).symm

end Alternatives

abbrev TokenRules := List (String × Alternatives)

/-- The symbol of a token that has to stand for a nonterminal. -/
def Convention.headSymbol (c : Convention) (token : String) : Except Error Symbol := do
  let s ← c.symbol token
  if s.isNonterminal then return s else throw (.headToken token)

def Convention.derivationSymbols (c : Convention) (alternatives : List (List String)) :
    Except Error (List Derivation) :=
  alternatives.mapM fun d => d.mapM c.symbol

namespace Grammar

/-- A head that is met again keeps its first place and takes its last alternatives. Of each head
the alternatives are read before the head itself; the start token is read last. -/
def ofTokens (c : Convention) (start : String) (rules : TokenRules) : Except Error Grammar := do
  let read ← (Keyed.ofList rules).entries.mapM fun e => do
    let alternatives ← c.derivationSymbols e.2.toTokens
    return (← c.headSymbol e.1, alternatives)
  ofRules (← c.headSymbol start) read

def toTokens (g : Grammar) (c : Convention) : Except Error (List (String × List (List String))) :=
  g.productions.entries.mapM fun e =>
    return (e.1, ← e.2.mapM fun d => d.mapM c.token)

/-- The grammar read from the tokens that `g` is written in. -/
def reread (g : Grammar) (c : Convention) : Except Error Grammar := do
  let start ← c.token g.startSymbol
  let rules ← g.toTokens c
  ofTokens c start (rules.map fun e => (e.1, .listed (e.2.map .tokens)))

end Grammar

end FirstFollow
