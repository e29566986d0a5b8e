import FirstFollow.Proofs.RoundTrip

/-!
Which grammars in plain tokens are accepted, and how the others are refused. Reading goes through
nested traversals that stop at the first fault. Each of them obeys a list of checks (`Obeys`), and
the lists are put together in the order of the traversals (`Grammar.tokenChecks`).
-/

namespace FirstFollow

/-! ### Checks -/

/-- A condition, and the error where it is not met. -/
structure Check where
  holds : Bool
  error : Error

/-- The error of the first check that fails. -/
def firstError (ks : List Check) : Option Error :=
  ks.findSome? fun k => if k.holds then none else some k.error

section

variable {α β : Type} {ks ks' : List Check}

theorem firstError_eq_none_iff : firstError ks = none ↔ ∀ k ∈ ks, k.holds := by
  simp [firstError, List.findSome?_eq_none_iff]

theorem firstError_singleton (k : Check) :
    firstError [k] = if k.holds then none else some k.error := by
  cases h : k.holds <;> simp [firstError, h]

theorem firstError_append : firstError (ks ++ ks') = (firstError ks).or (firstError ks') :=
  List.findSome?_append

theorem firstError_flatMap (f : α → List Check) (as : List α) :
    firstError (as.flatMap f) = as.findSome? fun a => firstError (f a) := by
  induction as with
  | nil => rfl
  | cons a as ih =>
    rw [List.flatMap_cons, firstError_append, ih, List.findSome?_cons]
    cases firstError (f a) <;> rfl

theorem firstError_map (f : α → Check) (as : List α) :
    firstError (as.map f) = as.findSome? fun a => firstError [f a] := by
  rw [List.map_eq_flatMap, firstError_flatMap]

/-- `x` fails with the error of the first check that fails, and only then. -/
def Obeys (ks : List Check) (x : Except Error α) : Prop :=
  ∀ e, x = .error e ↔ firstError ks = some e

namespace Obeys

theorem ok (a : α) : Obeys [] (.ok a) := by
  intro e
  simp [firstError]

theorem check (p : Prop) [Decidable p] (e : Error) (a : α) :
    Obeys [⟨p, e⟩] (if p then .ok a else .error e) := by
  intro e'
  rw [firstError_singleton]
  by_cases hp : p <;> simp [hp]

theorem exists_ok_iff {x : Except Error α} (h : Obeys ks x) :
    (∃ a, x = .ok a) ↔ ∀ k ∈ ks, k.holds := by
  rw [← firstError_eq_none_iff]
  cases x with
  | ok a =>
    refine iff_of_true ⟨a, rfl⟩ (Option.eq_none_iff_forall_ne_some.2 fun e he => ?_)
    cases (h e).2 he
  | error e => simp [(h e).1 rfl]

/-- What comes later is checked later. -/
theorem bind {x : Except Error α} {f : α → Except Error β} (hx : Obeys ks x)
    (hf : ∀ a, x = .ok a → Obeys ks' (f a)) : Obeys (ks ++ ks') (x >>= f) := by
  intro e
  rw [firstError_append]
  cases x with
  | ok a =>
    have hnone := firstError_eq_none_iff.2 (hx.exists_ok_iff.1 ⟨a, rfl⟩)
    rw [hnone, Option.none_or]
    exact hf a rfl e
  | error e' =>
    rw [(hx e').1 rfl, Option.some_or]
    show Except.error e' = .error e ↔ _
    simp

/-- What only makes use of the result is not checked. -/
theorem map {x : Except Error α} (hx : Obeys ks x) (f : α → β) :
    Obeys ks (x >>= fun a => .ok (f a)) := by
  rw [← List.append_nil ks]
  exact hx.bind fun a _ => ok (f a)

theorem mapM {f : α → Except Error β} {checks : α → List Check} {as : List α}
    (h : ∀ a ∈ as, Obeys (checks a) (f a)) : Obeys (as.flatMap checks) (as.mapM f) := by
  induction as with
  | nil => exact ok _
  | cons a as ih =>
    rw [List.mapM_cons, List.flatMap_cons]
    exact (h a (by simp)).bind fun b _ => (ih fun a ha => h a (by simp [ha])).map (b :: ·)

end Obeys

end

/-! ### Tokens -/

namespace Convention

/-- The symbol that a token stands for unless it is empty. -/
def symbolOf (c : Convention) (token : String) : Symbol :=
  match c.classify token with
  | .epsilon => .epsilon
  | .endMarker => .endMarker
  | .nonterminal => .nonterminal token
  | .terminal => .terminal token

/-- A token must not be empty. -/
def emptyCheck (token : String) : Check := ⟨token ≠ "", .emptyToken⟩

/-- The token of a head or start must stand for a nonterminal. -/
def headChecks (c : Convention) (token : String) : List Check :=
  [emptyCheck token, ⟨c.classify token = .nonterminal, .headToken token⟩]

/-- All tokens under a head are checked before the head. -/
def entryChecks (c : Convention) (e : String × List (List String)) : List Check :=
  (e.2.flatMap fun d => d.map emptyCheck) ++ c.headChecks e.1

variable {c : Convention} {t : String}

theorem symbol_eq (c : Convention) (t : String) :
    c.symbol t = if t = "" then .error .emptyToken else .ok (c.symbolOf t) := rfl

theorem symbolOf_isNonterminal : (c.symbolOf t).isNonterminal ↔ c.classify t = .nonterminal := by
  unfold symbolOf
  cases c.classify t <;> simp [Symbol.isNonterminal]

theorem symbolOf_of_ok {s : Symbol} (h : c.symbol t = .ok s) : c.symbolOf t = s := by
  rw [symbol_eq] at h
  split at h
  · cases h
  · exact Except.ok.inj h

theorem symbol_obeys (c : Convention) (t : String) : Obeys [emptyCheck t] (c.symbol t) := by
  rw [symbol_eq, ← ite_not]
  exact Obeys.check (t ≠ "") .emptyToken (c.symbolOf t)

theorem derivationSymbols_obeys (c : Convention) (ds : List (List String)) :
    Obeys (ds.flatMap fun d => d.map emptyCheck) (c.derivationSymbols ds) := by
  refine Obeys.mapM fun d _ => ?_
  rw [List.map_eq_flatMap]
  exact Obeys.mapM fun t _ => c.symbol_obeys t

theorem headSymbol_obeys (c : Convention) (t : String) :
    Obeys (c.headChecks t) (c.headSymbol t) := by
  refine (c.symbol_obeys t).bind fun s hs => ?_
  obtain rfl := symbolOf_of_ok hs
  simp only [← symbolOf_isNonterminal]
  exact Obeys.check _ _ _

theorem readEntry_obeys (c : Convention) (r : String × Alternatives) :
    Obeys (c.entryChecks (r.1, r.2.toTokens)) (c.readEntry r) := by
  refine (c.derivationSymbols_obeys r.2.toTokens).bind fun ds _ => ?_
  exact (c.headSymbol_obeys r.1).map (·, ds)

/-- What an entry that passes its checks is read as. -/
def entryOf (c : Convention) (e : String × List (List String)) : String × List Derivation :=
  (e.1, e.2.map (List.map c.symbolOf))

theorem eq_of_readEntry {r : String × Alternatives} {e : Symbol × List Derivation}
    (h : c.readEntry r = .ok e) :
    (.nonterminal r.1, (c.entryOf (r.1, r.2.toTokens)).2) = e := by
  obtain ⟨ds, hds, h⟩ := bind_eq_ok_iff.1 h
  obtain ⟨s, hs, h⟩ := bind_eq_ok_iff.1 h
  obtain ⟨-, rfl⟩ := headSymbol_eq_ok_iff.1 hs
  have hderivation : ∀ d d', List.Forall₂ (fun x s => c.symbol x = .ok s) d d' →
      d.map c.symbolOf = d' := by
    intro d d' hd
    exact map_eq_right_of_forall₂ (fun t s hs => symbolOf_of_ok hs) hd
  have hderivations := map_eq_right_of_forall₂ hderivation (derivationSymbols_eq_ok_iff.1 hds)
  cases h
  rw [entryOf, hderivations]

end Convention

/-! ### Rules -/

namespace Grammar

variable {c : Convention} {start : String}

/-- A token that stands for a nonterminal must be a head. -/
def definedCheck (c : Convention) (heads : List String) (head : String) (d : List String)
    (token : String) : Check :=
  ⟨c.classify token = .nonterminal → token ∈ heads,
    .undefined token (some ⟨head, d.map c.symbolOf⟩)⟩

theorem refusal?_symbolOf (heads : List String) (head : String) (d : List String) (t : String) :
    refusal? heads ⟨head, d.map c.symbolOf⟩ (c.symbolOf t) =
      firstError [definedCheck c heads head d t] := by
  rw [firstError_singleton, definedCheck]
  unfold Convention.symbolOf
  cases h : c.classify t <;> simp [refusal?]

/-- All tokens of right-hand sides, by entries, alternatives and positions. -/
def definedChecks (c : Convention) (lists : List (String × List (List String))) : List Check :=
  lists.flatMap fun e => e.2.flatMap fun d => d.map (definedCheck c (lists.map Prod.fst) e.1 d)

/-- The checks of a written grammar, in their order. -/
def tokenChecks (c : Convention) (start : String) (lists : List (String × List (List String))) :
    List Check :=
  lists.flatMap c.entryChecks ++ c.headChecks start ++
    ⟨start ∈ lists.map Prod.fst, .undefined start none⟩ :: definedChecks c lists

variable {lists : List (String × List (List String))}

theorem map_fst_entryOf : (lists.map c.entryOf).map Prod.fst = lists.map Prod.fst :=
  List.map_map

theorem keys_entryOf (h : (lists.map Prod.fst).Nodup) :
    (Keyed.ofList (lists.map c.entryOf)).keys = lists.map Prod.fst := by
  rw [Keyed.keys_ofList (map_fst_entryOf ▸ h), map_fst_entryOf]

theorem firstRefusal?_entryOf (h : (lists.map Prod.fst).Nodup) :
    firstRefusal? (Keyed.ofList (lists.map c.entryOf)) = firstError (definedChecks c lists) := by
  rw [firstRefusal?, keys_entryOf h, Keyed.entries_ofList (map_fst_entryOf ▸ h),
    List.findSome?_map, definedChecks, firstError_flatMap]
  congr 1
  funext e
  show (e.2.map (List.map c.symbolOf)).findSome? _ = _
  rw [List.findSome?_map, firstError_flatMap]
  congr 1
  funext d
  show (d.map c.symbolOf).findSome? _ = _
  rw [List.findSome?_map, firstError_map]
  congr 1
  funext t
  exact refusal?_symbolOf _ e.1 d t

theorem ofRules_obeys (start : String) {named : List (String × List Derivation)} {ks : List Check}
    (hks : firstRefusal? (Keyed.ofList named) = firstError ks) :
    Obeys (⟨start ∈ Keyed.ofList named, .undefined start none⟩ :: ks)
      (ofRules (.nonterminal start) (named.map fun e => (.nonterminal e.1, e.2))) := by
  have hread : (named.map fun e => (Symbol.nonterminal e.1, e.2)).mapM
      (fun e => return (← keyName e.1, e.2)) = .ok named := named_eq_ok_iff.2 rfl
  intro e
  rw [ofRules, hread, ← List.singleton_append, firstError_append, firstError_singleton, ← hks]
  show (if hstart : start ∈ Keyed.ofList named then _ else _) = _ ↔ _
  by_cases hstart : start ∈ Keyed.ofList named
  · rw [dif_pos hstart]
    split
    next hclosed => simp [hstart, hclosed]
    next e' he' => simp [hstart, he']
  · simp [hstart]

/-! ### Grammars -/

theorem ofTokens_obeys (c : Convention) (start : String) (rules : TokenRules) :
    Obeys (tokenChecks c start rules.tokenLists) (ofTokens c start rules) := by
  have hread : Obeys (rules.tokenLists.flatMap c.entryChecks)
      ((Keyed.ofList rules).entries.mapM c.readEntry) := by
    rw [TokenRules.tokenLists, List.flatMap_map]
    exact Obeys.mapM fun r _ => c.readEntry_obeys r
  show Obeys _ ((Keyed.ofList rules).entries.mapM c.readEntry >>= fun read =>
    c.headSymbol start >>= fun s => ofRules s read)
  rw [tokenChecks, List.append_assoc]
  refine hread.bind fun read hok => (c.headSymbol_obeys start).bind fun s hs => ?_
  obtain ⟨-, rfl⟩ := Convention.headSymbol_eq_ok_iff.1 hs
  -- what was read without a fault is known, so that the rules can be checked on the tokens
  have hnamed : (rules.tokenLists.map c.entryOf).map
      (fun e => (Symbol.nonterminal e.1, e.2)) = read := by
    have hentries := map_eq_right_of_forall₂ (fun r e he => Convention.eq_of_readEntry he)
      (mapM_eq_ok_iff.1 hok)
    rw [← hentries, TokenRules.tokenLists, List.map_map, List.map_map]
    rfl
  have hmem : start ∈ Keyed.ofList (rules.tokenLists.map c.entryOf) ↔
      start ∈ rules.tokenLists.map Prod.fst := by
    rw [Keyed.mem_def, keys_entryOf rules.nodup_tokenLists]
  have hrules := ofRules_obeys start (firstRefusal?_entryOf (c := c) rules.nodup_tokenLists)
  simpa only [hmem, hnamed] using hrules

/-- What a grammar in tokens has to be like: no token is empty, heads and the start stand for
nonterminals, and the start and all nonterminals on right-hand sides are heads. -/
structure Accepted (c : Convention) (start : String)
    (lists : List (String × List (List String))) : Prop where
  tokens : ∀ e ∈ lists, ∀ d ∈ e.2, ∀ t ∈ d, t ≠ ""
  heads : ∀ e ∈ lists, e.1 ≠ "" ∧ c.classify e.1 = .nonterminal
  start_nonterminal : start ≠ "" ∧ c.classify start = .nonterminal
  start_mem : start ∈ lists.map Prod.fst
  closed : ∀ e ∈ lists, ∀ d ∈ e.2, ∀ t ∈ d, c.classify t = .nonterminal → t ∈ lists.map Prod.fst

theorem accepted_iff : Accepted c start lists ↔ ∀ k ∈ tokenChecks c start lists, k.holds := by
  have hhead : ∀ t, (∀ k ∈ c.headChecks t, k.holds) ↔ t ≠ "" ∧ c.classify t = .nonterminal := by
    simp [Convention.headChecks, Convention.emptyCheck]
  have hentries : (∀ k ∈ lists.flatMap c.entryChecks, k.holds) ↔ ∀ e ∈ lists,
      (∀ d ∈ e.2, ∀ t ∈ d, t ≠ "") ∧ e.1 ≠ "" ∧ c.classify e.1 = .nonterminal := by
    simp only [List.forall_mem_flatMap, Convention.entryChecks, List.forall_mem_append,
      List.forall_mem_map, hhead, Convention.emptyCheck, decide_eq_true_eq]
  have hdefined : (∀ k ∈ definedChecks c lists, k.holds) ↔ ∀ e ∈ lists, ∀ d ∈ e.2, ∀ t ∈ d,
      c.classify t = .nonterminal → t ∈ lists.map Prod.fst := by
    simp only [definedChecks, List.forall_mem_flatMap, List.forall_mem_map, definedCheck,
      decide_eq_true_eq]
  simp only [tokenChecks, List.forall_mem_append, List.forall_mem_cons, hentries, hhead, hdefined,
    decide_eq_true_eq]
  constructor
  · rintro ⟨htokens, hheads, hstart, hmem, hclosed⟩
    exact ⟨⟨fun e he => ⟨htokens e he, hheads e he⟩, hstart⟩, hmem, hclosed⟩
  · rintro ⟨⟨hentries, hstart⟩, hmem, hclosed⟩
    exact ⟨fun e he => (hentries e he).1, fun e he => (hentries e he).2, hstart, hmem, hclosed⟩

/-- A grammar in tokens is read if and only if it is like that. Otherwise the error is that of the
first check that fails: those of the entries in turn, in each of them of the tokens before the head,
then those of the start, and last that nonterminals on right-hand sides are heads. -/
theorem ofTokens_accepts_iff (c : Convention) (start : String) (rules : TokenRules) :
    ((∃ g, ofTokens c start rules = .ok g) ↔ Accepted c start rules.tokenLists) ∧
    ∀ e, ofTokens c start rules = .error e ↔
      firstError (tokenChecks c start rules.tokenLists) = some e := by
  have hobeys := ofTokens_obeys c start rules
  exact ⟨hobeys.exists_ok_iff.trans accepted_iff.symm, hobeys⟩

/-- Of several faults the first one is told: the head of the first entry comes before an empty
token in the second one. -/
example : ofTokens {} "" [("a", .text "B"), ("S", .listed [.tokens ["S", ""]])] =
    .error (.headToken "a") := by
  decide +kernel

/-- A text of alternatives has two of them where a listed text has two tokens of one. -/
example : ofTokens {} "S" [("S", .text "aB")] =
      .error (.undefined "B" (some ⟨"S", [.nonterminal "B"]⟩)) ∧
    ofTokens {} "S" [("S", .listed [.text "aB"])] =
      .error (.undefined "B" (some ⟨"S", [.terminal "a", .nonterminal "B"]⟩)) := by
  decide +kernel

end Grammar

end FirstFollow
