import FirstFollow.Grammar.Tokens
import Mathlib.Data.List.Forall2

/-!
Grammars and their written form. Both reading and writing go through a grammar entry by entry and
symbol by symbol (`Grammar.ofTokens_eq_ok_iff`, `Grammar.toTokens_eq_ok_iff`), and the symbol of a
token has that token again. So what was read is written as it stood, and what was written is read
as it was if its symbols are.
-/

namespace FirstFollow

/-! ### Traversals that can fail -/

section

variable {α β : Type}

theorem bind_eq_ok_iff {x : Except Error α} {f : α → Except Error β} {b : β} :
    (x >>= f) = .ok b ↔ ∃ a, x = .ok a ∧ f a = .ok b := by
  cases x with
  | ok a =>
    show f a = .ok b ↔ _
    simp
  | error e =>
    show Except.error e = .ok b ↔ _
    simp

theorem mapM_eq_ok_iff {f : α → Except Error β} {xs : List α} {ys : List β} :
    xs.mapM f = .ok ys ↔ List.Forall₂ (fun x y => f x = .ok y) xs ys := by
  induction xs generalizing ys with
  | nil =>
    show Except.ok [] = .ok ys ↔ _
    simp [eq_comm]
  | cons x xs ih =>
    simp only [List.mapM_cons, bind_eq_ok_iff, ih, List.forall₂_cons_left_iff]
    constructor
    · rintro ⟨y, hy, ys', hys, h⟩
      cases h
      exact ⟨y, ys', hy, hys, rfl⟩
    · rintro ⟨y, ys', hy, hys, rfl⟩
      exact ⟨y, hy, ys', hys, rfl⟩

theorem map_eq_of_forall₂ {γ : Type} {R : α → β → Prop} {f : α → γ} {f' : β → γ}
    (hf : ∀ a b, R a b → f a = f' b) {as : List α} {bs : List β} (h : List.Forall₂ R as bs) :
    as.map f = bs.map f' := by
  rw [← List.forall₂_eq_eq_eq, List.forall₂_map_left_iff, List.forall₂_map_right_iff]
  exact h.imp hf

theorem map_eq_right_of_forall₂ {R : α → β → Prop} {f : α → β} (hf : ∀ a b, R a b → f a = b)
    {as : List α} {bs : List β} (h : List.Forall₂ R as bs) : as.map f = bs := by
  have hmap : as.map f = bs.map id := map_eq_of_forall₂ hf h
  rwa [List.map_id] at hmap

theorem exists_forall₂_iff {R : α → β → Prop} {xs : List α} :
    (∃ ys, List.Forall₂ R xs ys) ↔ ∀ x ∈ xs, ∃ y, R x y := by
  induction xs with
  | nil => simp
  | cons x xs ih =>
    rw [List.forall_mem_cons, ← ih]
    constructor
    · rintro ⟨_, h⟩
      obtain ⟨y, ys, hy, hys, rfl⟩ := List.forall₂_cons_left_iff.1 h
      exact ⟨⟨y, hy⟩, ys, hys⟩
    · rintro ⟨⟨y, hy⟩, ys, hys⟩
      exact ⟨y :: ys, .cons hy hys⟩

/-- A list can be carried to another one and back if each of its members can. -/
theorem exists_forall₂_and_flip {R : α → β → Prop} {S : β → α → Prop} {xs : List α} :
    (∃ ys, List.Forall₂ R xs ys ∧ List.Forall₂ S ys xs) ↔ ∀ x ∈ xs, ∃ y, R x y ∧ S y x := by
  rw [← exists_forall₂_iff]
  constructor
  · rintro ⟨ys, hR, hS⟩
    exact ⟨ys, List.Forall₂.mp (fun _ _ h h' => ⟨h, h'⟩) hR hS.flip⟩
  · rintro ⟨ys, h⟩
    exact ⟨ys, h.imp fun _ _ h => h.1, (h.imp fun _ _ h => h.2).flip⟩

theorem exists_mem_of_forall₂ {R : α → β → Prop} {xs : List α} {ys : List β}
    (h : List.Forall₂ R xs ys) {y : β} (hy : y ∈ ys) : ∃ x ∈ xs, R x y := by
  induction h with
  | nil => cases hy
  | cons hxy _ ih =>
    rcases List.mem_cons.1 hy with rfl | hy
    · exact ⟨_, List.mem_cons_self, hxy⟩
    · obtain ⟨x, hx, hR⟩ := ih hy
      exact ⟨x, List.mem_cons_of_mem _ hx, hR⟩

end

/-! ### Symbols -/

namespace Convention

variable {c : Convention} {t : String} {s : Symbol}

theorem token_of_symbol (h : c.symbol t = .ok s) : c.token s = .ok t := by
  unfold symbol classify at h
  split at h
  · cases h
  · split at h <;> cases h <;> grind [token, Symbol.name, Symbol.name?]

theorem eq_of_symbol_nonterminal {name : String} (h : c.symbol t = .ok (.nonterminal name)) :
    name = t :=
  Except.ok.inj (token_of_symbol h)

theorem headSymbol_eq_ok_iff :
    c.headSymbol t = .ok s ↔ c.symbol t = .ok (.nonterminal t) ∧ s = .nonterminal t := by
  rw [headSymbol, bind_eq_ok_iff]
  constructor
  · rintro ⟨s', hs', h⟩
    split at h
    next hnt =>
      obtain rfl : s' = s := Except.ok.inj h
      obtain ⟨name, rfl⟩ := Symbol.isNonterminal_iff.1 hnt
      obtain rfl := eq_of_symbol_nonterminal hs'
      exact ⟨hs', rfl⟩
    next => cases h
  · rintro ⟨ht, rfl⟩
    exact ⟨_, ht, rfl⟩

/-- The token of `s` stands for `s`. -/
def Restores (c : Convention) (s : Symbol) : Prop := (c.token s >>= c.symbol) = .ok s

instance (c : Convention) (s : Symbol) : Decidable (c.Restores s) :=
  inferInstanceAs (Decidable (_ = _))

theorem restores_iff_token : c.Restores s ↔ ∃ t, c.token s = .ok t ∧ c.symbol t = .ok s :=
  bind_eq_ok_iff

/-- The symbols that are restored are those that some token stands for. -/
theorem restores_iff : c.Restores s ↔ ∃ t, c.symbol t = .ok s := by
  rw [restores_iff_token]
  constructor
  · rintro ⟨t, -, ht⟩
    exact ⟨t, ht⟩
  · rintro ⟨t, ht⟩
    exact ⟨t, token_of_symbol ht, ht⟩

/-! ### Entries -/

/-- A head with its alternatives in tokens, and what is read from them. -/
structure Reads (c : Convention) (t : String × List (List String)) (e : String × List Derivation) :
    Prop where
  head : c.symbol t.1 = .ok (.nonterminal e.1)
  alternatives : List.Forall₂ (List.Forall₂ fun x s => c.symbol x = .ok s) t.2 e.2

/-- A nonterminal with its alternatives, and what they are written as. -/
structure Writes (c : Convention) (e : String × List Derivation) (t : String × List (List String)) :
    Prop where
  head : e.1 = t.1
  alternatives : List.Forall₂ (List.Forall₂ fun s x => c.token s = .ok x) e.2 t.2

theorem derivationSymbols_eq_ok_iff {ts : List (List String)} {ds : List Derivation} :
    c.derivationSymbols ts = .ok ds ↔
      List.Forall₂ (List.Forall₂ fun x s => c.symbol x = .ok s) ts ds := by
  simp only [derivationSymbols, mapM_eq_ok_iff]

/-- What is read of one head. -/
def readEntry (c : Convention) (r : String × Alternatives) :
    Except Error (Symbol × List Derivation) := do
  let alternatives ← c.derivationSymbols r.2.toTokens
  return (← c.headSymbol r.1, alternatives)

theorem readEntry_eq_ok_iff {r : String × Alternatives} {e : String × List Derivation} :
    c.readEntry r = .ok (.nonterminal e.1, e.2) ↔ c.Reads (r.1, r.2.toTokens) e := by
  obtain ⟨name, ds⟩ := e
  simp only [readEntry, bind_eq_ok_iff, derivationSymbols_eq_ok_iff, headSymbol_eq_ok_iff]
  constructor
  · rintro ⟨_, hds, _, ⟨ht, rfl⟩, h⟩
    cases h
    exact ⟨ht, hds⟩
  · rintro ⟨ht, hds⟩
    have hname : name = r.1 := eq_of_symbol_nonterminal ht
    exact ⟨ds, hds, _, ⟨hname ▸ ht, rfl⟩, hname ▸ rfl⟩

/-- An entry is read again as it is if all its symbols are restored. -/
theorem exists_writes_and_reads {e : String × List Derivation} :
    (∃ t, c.Writes e t ∧ c.Reads t e) ↔
      c.Restores (.nonterminal e.1) ∧ ∀ d ∈ e.2, ∀ s ∈ d, c.Restores s := by
  have hds : (∃ ts, List.Forall₂ (List.Forall₂ fun s x => c.token s = .ok x) e.2 ts ∧
      List.Forall₂ (List.Forall₂ fun x s => c.symbol x = .ok s) ts e.2) ↔
      ∀ d ∈ e.2, ∀ s ∈ d, c.Restores s := by
    simp only [exists_forall₂_and_flip, restores_iff_token]
  rw [← hds]
  constructor
  · rintro ⟨t, hw, hr⟩
    exact ⟨restores_iff.2 ⟨_, hr.head⟩, _, hw.alternatives, hr.alternatives⟩
  · rintro ⟨hhead, ts, hw, hr⟩
    obtain ⟨x, hx⟩ := restores_iff.1 hhead
    obtain rfl := eq_of_symbol_nonterminal hx
    exact ⟨(e.1, ts), ⟨rfl, hw⟩, ⟨hx, hr⟩⟩

theorem Writes.map_fst {es : List (String × List Derivation)}
    {ts : List (String × List (List String))} (h : List.Forall₂ c.Writes es ts) :
    es.map Prod.fst = ts.map Prod.fst :=
  map_eq_of_forall₂ (fun _ _ he => he.head) h

theorem Reads.writes {t : String × List (List String)} {e : String × List Derivation}
    (h : c.Reads t e) : c.Writes e t where
  head := eq_of_symbol_nonterminal h.head
  alternatives := h.alternatives.flip.imp fun _ _ hd => hd.flip.imp fun _ _ => token_of_symbol

theorem Reads.map_fst {ts : List (String × List (List String))}
    {es : List (String × List Derivation)} (h : List.Forall₂ c.Reads ts es) :
    ts.map Prod.fst = es.map Prod.fst :=
  (Writes.map_fst (h.flip.imp fun _ _ he => he.writes)).symm

end Convention

/-! ### Grammars -/

/-- The heads in their order, each with its alternatives as lists of tokens. -/
def TokenRules.tokenLists (rules : TokenRules) : List (String × List (List String)) :=
  (Keyed.ofList rules).entries.map fun e => (e.1, e.2.toTokens)

/-- All written out as lists. -/
def TokenRules.listed (lists : List (String × List (List String))) : TokenRules :=
  lists.map fun e => (e.1, .listed (e.2.map .tokens))

theorem TokenRules.nodup_tokenLists (rules : TokenRules) :
    (rules.tokenLists.map Prod.fst).Nodup := by
  rw [tokenLists, List.map_map]
  exact (Keyed.ofList rules).nodup

theorem TokenRules.tokenLists_eq {rules : TokenRules} (h : (rules.map Prod.fst).Nodup) :
    rules.tokenLists = rules.map fun e => (e.1, e.2.toTokens) := by
  rw [tokenLists, Keyed.entries_ofList h]

theorem TokenRules.tokenLists_listed {lists : List (String × List (List String))}
    (h : (lists.map Prod.fst).Nodup) : tokenLists (listed lists) = lists := by
  have hkeys : (listed lists).map Prod.fst = lists.map Prod.fst := by simp [listed]
  rw [tokenLists_eq (hkeys ▸ h), listed, List.map_map]
  apply List.map_id''
  intro e
  have htokens : Spelling.toTokens ∘ Spelling.tokens = id := rfl
  simp [Alternatives.toTokens, htokens]

namespace Grammar

variable {g : Grammar} {c : Convention} {start : Symbol}

theorem keyName_eq_ok_iff {s : Symbol} {name : String} :
    keyName s = .ok name ↔ s = .nonterminal name := by
  cases s <;> simp [keyName]

theorem startName_eq_ok_iff {s : Symbol} {name : String} :
    startName s = .ok name ↔ s = .nonterminal name := by
  cases s <;> simp [startName]

/-- The keys of rules have names if all of them are nonterminals. -/
theorem named_eq_ok_iff {rules : List (Symbol × List Derivation)}
    {named : List (String × List Derivation)} :
    (rules.mapM fun e => return (← keyName e.1, e.2)) = .ok named ↔
      rules = named.map fun e => (.nonterminal e.1, e.2) := by
  have hentry : ∀ (r : Symbol × List Derivation) (e : String × List Derivation),
      (do return (← keyName r.1, r.2)) = Except.ok e ↔ r = (.nonterminal e.1, e.2) := by
    rintro ⟨s, ds⟩ ⟨name, ds'⟩
    rw [bind_eq_ok_iff]
    simp only [keyName_eq_ok_iff]
    constructor
    · rintro ⟨_, rfl, h⟩
      cases h
      rfl
    · intro h
      cases h
      exact ⟨name, rfl, rfl⟩
  rw [mapM_eq_ok_iff]
  simp only [hentry]
  rw [← List.forall₂_map_right_iff, List.forall₂_eq_eq_eq]

theorem ofRules_eq_ok_iff {rules : List (Symbol × List Derivation)} :
    ofRules start rules = .ok g ↔ start = g.startSymbol ∧
      ∃ named, rules = named.map (fun e => (.nonterminal e.1, e.2)) ∧
        g.productions = Keyed.ofList named := by
  rw [ofRules, bind_eq_ok_iff]
  simp only [named_eq_ok_iff, bind_eq_ok_iff, startName_eq_ok_iff]
  constructor
  · rintro ⟨named, rfl, name, rfl, h⟩
    split at h
    next hstart =>
      split at h
      next hclosed =>
        cases h
        exact ⟨rfl, named, rfl, rfl⟩
      next => cases h
    next => cases h
  · rintro ⟨rfl, named, rfl, hproductions⟩
    refine ⟨named, rfl, g.start, rfl, ?_⟩
    obtain ⟨start, productions, hstart, hclosed⟩ := g
    obtain rfl : productions = Keyed.ofList named := hproductions
    rw [dif_pos hstart]
    split
    next => rfl
    next e he => simp [firstRefusal?_eq_none_iff.2 hclosed] at he

theorem ofTokens_eq_ok_iff {start : String} {rules : TokenRules} :
    ofTokens c start rules = .ok g ↔ c.symbol start = .ok g.startSymbol ∧
      List.Forall₂ c.Reads rules.tokenLists g.productions.entries := by
  have hread : ∀ named : List (String × List Derivation),
      (Keyed.ofList rules).entries.mapM c.readEntry =
        .ok (named.map fun e => (.nonterminal e.1, e.2)) ↔
      List.Forall₂ c.Reads rules.tokenLists named := by
    intro named
    rw [mapM_eq_ok_iff, List.forall₂_map_right_iff, TokenRules.tokenLists,
      List.forall₂_map_left_iff]
    simp only [Convention.readEntry_eq_ok_iff]
  show ((Keyed.ofList rules).entries.mapM c.readEntry >>= fun read =>
    c.headSymbol start >>= fun s => ofRules s read) = .ok g ↔ _
  simp only [bind_eq_ok_iff, ofRules_eq_ok_iff, Convention.headSymbol_eq_ok_iff]
  constructor
  · rintro ⟨_, hr, _, ⟨hstart, rfl⟩, hg, named, rfl, hproductions⟩
    have hnamed := (hread named).1 hr
    have hentries : g.productions.entries = named := by
      rw [hproductions, Keyed.entries_ofList]
      rw [← Convention.Reads.map_fst hnamed]
      exact rules.nodup_tokenLists
    exact ⟨hg ▸ hstart, hentries ▸ hnamed⟩
  · rintro ⟨hstart, hr⟩
    have hg := Convention.eq_of_symbol_nonterminal hstart
    refine ⟨_, (hread _).2 hr, _, ⟨hg ▸ hstart, rfl⟩, hg ▸ rfl, _, rfl, ?_⟩
    exact (Keyed.ofList_entries _).symm

theorem toTokens_eq_ok_iff {lists : List (String × List (List String))} :
    g.toTokens c = .ok lists ↔ List.Forall₂ c.Writes g.productions.entries lists := by
  have hentry : ∀ (e : String × List Derivation) (t : String × List (List String)),
      (return (e.1, ← e.2.mapM fun d => d.mapM c.token) : Except Error _) = .ok t ↔
        c.Writes e t := by
    rintro ⟨name, ds⟩ ⟨head, ts⟩
    simp only [bind_eq_ok_iff, mapM_eq_ok_iff]
    constructor
    · rintro ⟨_, hts, h⟩
      cases h
      exact ⟨rfl, hts⟩
    · rintro ⟨hhead, hts⟩
      obtain rfl : name = head := hhead
      exact ⟨ts, hts, rfl⟩
  rw [toTokens, mapM_eq_ok_iff]
  simp only [hentry]

theorem nodup_of_writes {lists : List (String × List (List String))}
    (h : List.Forall₂ c.Writes g.productions.entries lists) : (lists.map Prod.fst).Nodup := by
  rw [← Convention.Writes.map_fst h]
  exact g.productions.nodup

/-- All symbols are restored if the entries can be written and what is written be read as they
were. -/
theorem all_restored_iff : (∀ s, s ∈ g ∨ s ∈ g.mentioned → c.Restores s) ↔
    ∃ lists, List.Forall₂ c.Writes g.productions.entries lists ∧
      List.Forall₂ c.Reads lists g.productions.entries := by
  rw [exists_forall₂_and_flip]
  simp only [Convention.exists_writes_and_reads]
  constructor
  · intro h e he
    refine ⟨h _ (.inl (mem_iff.2 ⟨e.1, List.mem_map_of_mem he, rfl⟩)), fun d hd s hs => ?_⟩
    exact h s (.inr (mem_mentioned.2 ⟨e, he, d, hd, hs⟩))
  · rintro h s (hs | hs)
    · obtain ⟨name, hname, rfl⟩ := mem_iff.1 hs
      obtain ⟨e, he, rfl⟩ := List.mem_map.1 hname
      exact (h e he).1
    · obtain ⟨e, he, d, hd, hs⟩ := mem_mentioned.1 hs
      exact (h e he).2 d hd s hs

theorem all_restored_of_ofTokens {start : String} {rules : TokenRules}
    (h : ofTokens c start rules = .ok g) : ∀ s, s ∈ g ∨ s ∈ g.mentioned → c.Restores s := by
  obtain ⟨-, hr⟩ := ofTokens_eq_ok_iff.1 h
  exact all_restored_iff.2 ⟨_, hr.flip.imp fun _ _ he => he.writes, hr⟩

/-- What was read is written as it stood: the same heads in the same order, under each of them the
same alternatives, as lists of tokens. So the grammar depends on nothing but these lists, and to
read what was written and write it again changes nothing. -/
theorem toTokens_ofTokens {start : String} {rules : TokenRules}
    (h : ofTokens c start rules = .ok g) :
    g.toTokens c = .ok rules.tokenLists ∧ c.token g.startSymbol = .ok start ∧
      (∀ rules' : TokenRules, rules'.tokenLists = rules.tokenLists →
        ofTokens c start rules' = .ok g) ∧
      (do (← ofTokens c start (.listed rules.tokenLists)).toTokens c) = .ok rules.tokenLists := by
  obtain ⟨hstart, hr⟩ := ofTokens_eq_ok_iff.1 h
  have hwritten : g.toTokens c = .ok rules.tokenLists :=
    toTokens_eq_ok_iff.2 (hr.flip.imp fun _ _ he => he.writes)
  have hsame : ∀ rules' : TokenRules, rules'.tokenLists = rules.tokenLists →
      ofTokens c start rules' = .ok g := by
    intro rules' hlists
    rw [ofTokens_eq_ok_iff, hlists]
    exact ⟨hstart, hr⟩
  refine ⟨hwritten, Convention.token_of_symbol hstart, hsame, ?_⟩
  rw [hsame _ (TokenRules.tokenLists_listed rules.nodup_tokenLists)]
  exact hwritten

/-- Alternatives spelt in all ways, and a head that is given twice. -/
def spellings : TokenRules :=
  [("S", .text "aT"), ("T", .listed [.text "SE", .tokens []]),
    ("S", .listed [.tokens ["E", "Tail"], .text "xT"]), ("Tail", .text "")]

/-- The grammar of `spellings` when both reserved tokens are the same capital letter. -/
def spelt : Grammar where
  start := "S"
  productions := ⟨[("S", [[.epsilon, .nonterminal "Tail"], [.terminal "x", .nonterminal "T"]]),
    ("T", [[.nonterminal "S", .epsilon], []]), ("Tail", [])], by decide⟩
  start_mem := by decide
  closed := firstRefusal?_eq_none_iff.1 (by decide)

theorem ofTokens_spellings : ofTokens ⟨"E", "E"⟩ "S" spellings = .ok spelt := by decide +kernel

theorem toTokens_spelt : ofTokens ⟨"E", "E"⟩ "S" spellings = .ok spelt ∧
    spelt.toTokens ⟨"E", "E"⟩ = .ok [("S", [["E", "Tail"], ["x", "T"]]), ("T", [["S", "E"], []]),
      ("Tail", [])] := by
  have hlists : spellings.tokenLists = [("S", [["E", "Tail"], ["x", "T"]]),
      ("T", [["S", "E"], []]), ("Tail", [])] := by decide +kernel
  obtain ⟨hwritten, -⟩ := toTokens_ofTokens ofTokens_spellings
  exact ⟨ofTokens_spellings, hlists ▸ hwritten⟩

/-- What was written is read as it was if and only if all symbols are restored. Those of a grammar
that was itself read are. -/
theorem reread_eq_self_iff (g : Grammar) (c : Convention) :
    (g.reread c = .ok g ↔ ∀ s, s ∈ g ∨ s ∈ g.mentioned → c.Restores s) ∧
      ∀ start rules, ofTokens c start rules = .ok g → g.reread c = .ok g := by
  have hself : g.reread c = .ok g ↔ ∀ s, s ∈ g ∨ s ∈ g.mentioned → c.Restores s := by
    show (c.token g.startSymbol >>= fun start => g.toTokens c >>= fun lists =>
      ofTokens c start (.listed lists)) = .ok g ↔ _
    simp only [bind_eq_ok_iff, toTokens_eq_ok_iff]
    constructor
    · rintro ⟨start, -, lists, hw, h⟩
      obtain ⟨-, hr⟩ := ofTokens_eq_ok_iff.1 h
      rw [TokenRules.tokenLists_listed (nodup_of_writes hw)] at hr
      exact all_restored_iff.2 ⟨lists, hw, hr⟩
    · intro hall
      obtain ⟨start, htoken, hsymbol⟩ :=
        Convention.restores_iff_token.1 (hall g.startSymbol (.inl g.startSymbol_mem))
      obtain ⟨lists, hw, hr⟩ := all_restored_iff.1 hall
      refine ⟨start, htoken, lists, hw, ofTokens_eq_ok_iff.2 ⟨hsymbol, ?_⟩⟩
      rwa [TokenRules.tokenLists_listed (nodup_of_writes hw)]
  exact ⟨hself, fun start rules h => hself.2 (all_restored_of_ofTokens h)⟩

/-- `spelt` is read again from its own tokens, but not where `x` is a reserved token. -/
theorem reread_spelt :
    spelt.reread ⟨"E", "E"⟩ = .ok spelt ∧ ¬ spelt.reread ⟨"x", "$"⟩ = .ok spelt := by
  constructor
  · exact (reread_eq_self_iff spelt ⟨"E", "E"⟩).2 "S" spellings ofTokens_spellings
  · intro h
    have hx : Convention.Restores ⟨"x", "$"⟩ (.terminal "x") :=
      (reread_eq_self_iff spelt ⟨"x", "$"⟩).1.1 h _ (.inr (by decide))
    exact absurd hx (by decide)

end Grammar

end FirstFollow
