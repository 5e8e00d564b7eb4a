import DeadcatNode.DescendingSums
import DeadcatNode.QuoteExecution
import Mathlib.Data.List.Sort

/-!
# Selecting inventory for a quote

The provider covers the output of a quote by one exact output, by the smallest
single output which leaves enough change, by the largest outputs, or by an
exact subset.  The last one is a depth-first search within a budget of nodes.
-/

namespace DeadcatNode

open Checked

variable {outputs others candidates part selected : List WalletOwnedOutput}
  {output : WalletOwnedOutput} {required : ℕ}

def sortByOutpoint (outputs : List WalletOwnedOutput) : List WalletOwnedOutput :=
  outputs.insertionSort fun output next => output.outpoint ≤ next.outpoint

def sortByAmount (outputs : List WalletOwnedOutput) : List WalletOwnedOutput :=
  outputs.insertionSort fun output next =>
    toLex (OrderDual.toDual output.amount, output.outpoint) ≤
      toLex (OrderDual.toDual next.amount, next.outpoint)

def totalAmount (outputs : List WalletOwnedOutput) : ℕ :=
  (outputs.map WalletOwnedOutput.amount).sum

def validSelectedTotal (total required : ℕ) (limits : PairLimits) : Prop :=
  total = required ∨ ∃ change ∈ checkedSub total required, limits.minimumPositiveChange ≤ change

instance (total required : ℕ) (limits : PairLimits) :
    Decidable (validSelectedTotal total required limits) := by
  unfold validSelectedTotal
  infer_instance

/-! ## The search for an exact subset -/

/-- A node: the slots left, the sum and the outputs selected on the way to it. -/
structure SearchNode where
  slots : ℕ
  sum : ℕ
  selected : List WalletOwnedOutput

def SearchNode.Complete (required : ℕ) (node : SearchNode) : Prop :=
  node.slots = 0 ∧ node.sum = required
deriving Decidable

/-- What a search changes: its nodes left, and whether it ran out of them.  The
nodes it has visited are recorded besides. -/
structure ExactSubsetSearch where
  remainingNodes : ℕ
  exhaustedBudget : Bool := false
  visited : List SearchNode := []

namespace ExactSubsetSearch

abbrev Result := Option (List WalletOwnedOutput) × ExactSubsetSearch

def enter (search : ExactSubsetSearch) (node : SearchNode) : ExactSubsetSearch :=
  { search with
    remainingNodes := search.remainingNodes - 1
    visited := search.visited ++ [node] }

/-- The loop of a node over the candidates from its start.  A start is given by
the candidates which begin there. -/
def visitFrom
    (visit : List WalletOwnedOutput → ℕ → List WalletOwnedOutput → ExactSubsetSearch → Result)
    (required slots sum : ℕ) (selected : List WalletOwnedOutput) :
    Option ℕ → List WalletOwnedOutput → ExactSubsetSearch → Result
  | _, [], search => (none, search)
  | previousAmount, output :: rest, search =>
    if (output :: rest).length < slots then (none, search)
    else if previousAmount = some output.amount then
      visitFrom visit required slots sum selected previousAmount rest search
    else
      match checkedAdd 64 sum output.amount with
      | none =>
        visitFrom visit required slots sum selected (some output.amount) rest search
      | some nextSum =>
        if nextSum ≤ required then
          match visit rest nextSum (selected ++ [output]) search with
          | (some found, next) => (some found, next)
          | (none, next) =>
            if next.exhaustedBudget then (none, next)
            else
              visitFrom visit required slots sum selected (some output.amount) rest next
        else
          visitFrom visit required slots sum selected (some output.amount) rest search

/-- No part of the candidates fills the slots and the sum.  The candidates are
descending, so the first ones bound the sum from above and the last ones from
below. -/
def OutOfBounds (required slots sum : ℕ) (candidates : List WalletOwnedOutput) : Prop :=
  (candidates.length < slots ∨ required ≤ sum) ∨
    totalAmount (candidates.take slots) < required - sum ∨
      required - sum < totalAmount (candidates.drop (candidates.length - slots))
deriving Decidable

def visit (required : ℕ) :
    ℕ → List WalletOwnedOutput → ℕ → List WalletOwnedOutput → ExactSubsetSearch → Result
  | slots, candidates, sum, selected, search =>
    if search.remainingNodes = 0 then
      (none, { search with exhaustedBudget := true })
    else
      let search := search.enter ⟨slots, sum, selected⟩
      match slots with
      | 0 => (if sum = required then some selected else none, search)
      | slots + 1 =>
        if OutOfBounds required (slots + 1) sum candidates then (none, search)
        else
          visitFrom (visit required slots) required (slots + 1) sum selected none candidates search

def findFrom (required : ℕ) (candidates : List WalletOwnedOutput) : List ℕ → ExactSubsetSearch →
      Except QuoteAdmissionError (Option (List WalletOwnedOutput)) × ExactSubsetSearch
  | [], search => (.ok none, search)
  | cardinality :: cardinalities, search =>
    match visit required cardinality candidates 0 [] search with
    | (some selected, next) => (.ok (some selected), next)
    | (none, next) =>
      if next.exhaustedBudget then
        (.error .selectionSearchBudgetExceeded, next)
      else findFrom required candidates cardinalities next

def find (required maximumInputs : ℕ) (candidates : List WalletOwnedOutput)
    (search : ExactSubsetSearch) : Except QuoteAdmissionError (Option (List WalletOwnedOutput)) ×
      ExactSubsetSearch :=
  findFrom required candidates (List.range' 2 (min maximumInputs candidates.length - 1)) search

end ExactSubsetSearch

/-! ## Selection -/

def takeLargest (required : ℕ) (limits : PairLimits) :
    List WalletOwnedOutput → List WalletOwnedOutput → ℕ →
      Except QuoteAdmissionError (Option (List WalletOwnedOutput) × ℕ)
  | [], _, selectedTotal => .ok (none, selectedTotal)
  | output :: rest, selected, selectedTotal =>
    if selected.length = limits.maximumProviderInputs then
      .ok (none, selectedTotal)
    else do
      let selectedTotal ← okOr (checkedAdd 64 selectedTotal output.amount) .amountOverflow
      if validSelectedTotal selectedTotal required limits then
        return (some (sortByOutpoint (selected ++ [output])), selectedTotal)
      else
        takeLargest required limits rest (selected ++ [output]) selectedTotal

def selectionCandidates (eligible : EligibleInventory) (asset : AssetId) : List WalletOwnedOutput :=
  sortByOutpoint (eligible.outputs.filter fun output => output.asset = asset)

def selectSingleton (candidates : List WalletOwnedOutput) (required : ℕ)
    (limits : PairLimits) : Option WalletOwnedOutput :=
  (candidates.filter fun output =>
    validSelectedTotal output.amount required limits).argmin fun output =>
      toLex (output.amount, output.outpoint)

def checkedTotal (candidates : List WalletOwnedOutput) : Except QuoteAdmissionError ℕ :=
  okOr (candidates.foldlM (fun sum output => checkedAdd 64 sum output.amount) 0) .amountOverflow

def exactCandidates (candidates : List WalletOwnedOutput) (required : ℕ) : List WalletOwnedOutput :=
  candidates.filter fun output => output.amount ≤ required

def searchExactSubset (candidates : List WalletOwnedOutput) (required : ℕ) (limits : PairLimits) :
    Except QuoteAdmissionError (Option (List WalletOwnedOutput)) × ExactSubsetSearch :=
  ExactSubsetSearch.find required limits.maximumProviderInputs (exactCandidates candidates required)
    { remainingNodes := limits.selectionSearchNodeBudget }

def selectInventory (eligible : EligibleInventory) (asset : AssetId)
    (required : ℕ) (limits : PairLimits) : Except QuoteAdmissionError (List WalletOwnedOutput) :=
  let candidates := selectionCandidates eligible asset
  match candidates.find? fun output => output.amount = required with
  | some exact => .ok [exact]
  | none =>
    match selectSingleton candidates required limits with
    | some singleton => .ok [singleton]
    | none => do
      let total ← checkedTotal candidates
      require (¬total < required) .insufficientInventory
      let candidates := sortByAmount candidates
      match ← takeLargest required limits candidates [] 0 with
      | (some selected, _) => return selected
      | (none, maximumSelectedTotal) =>
        require (¬maximumSelectedTotal < required) .inventoryTooFragmented
        match ← (searchExactSubset candidates required limits).1 with
        | some exact => return sortByOutpoint exact
        | none => .error .inventoryTooFragmented

/-! ## Totals -/

@[simp] theorem totalAmount_nil : totalAmount [] = 0 := rfl

@[simp] theorem totalAmount_cons (output : WalletOwnedOutput) (outputs : List WalletOwnedOutput) :
    totalAmount (output :: outputs) = output.amount + totalAmount outputs := rfl

@[simp] theorem totalAmount_append (outputs others : List WalletOwnedOutput) :
    totalAmount (outputs ++ others) = totalAmount outputs + totalAmount others := by
  simp [totalAmount]

theorem totalAmount_perm (hperm : outputs.Perm others) : totalAmount outputs = totalAmount others :=
  (hperm.map _).sum_eq

theorem totalAmount_sublist
    (hsublist : outputs.Sublist others) : totalAmount outputs ≤ totalAmount others :=
  (hsublist.map _).sum_le_sum fun _ _ => Nat.zero_le _

theorem totalAmount_pos (hne : outputs ≠ []) : 0 < totalAmount outputs := by
  cases outputs with
  | nil => exact absurd rfl hne
  | cons output rest =>
    have hpos := output.amount_pos
    rw [totalAmount_cons]
    omega

theorem validSelectedTotal_iff {total : ℕ} {limits : PairLimits} :
    validSelectedTotal total required limits ↔
      total = required ∨ required + limits.minimumPositiveChange ≤ total := by
  unfold validSelectedTotal
  constructor
  · rintro (hexact | ⟨change, hchange, hminimum⟩)
    · exact .inl hexact
    · have hsplit := checkedSub_eq_some.mp hchange
      omega
  · rintro (hexact | hlarge)
    · exact .inl hexact
    · right
      refine ⟨total - required, checkedSub_eq_some.mpr ?_, ?_⟩ <;> omega

/-! ## The search is sound and complete -/

namespace ExactSubsetSearch

variable {slots sum : ℕ}

def Descending (candidates : List WalletOwnedOutput) : Prop :=
  candidates.Pairwise fun output next => next.amount ≤ output.amount

/-- A part of the candidates which fills the slots and the sum exactly. -/
structure Completes (required slots sum : ℕ) (candidates part : List WalletOwnedOutput) : Prop where
  sublist : part.Sublist candidates
  length : part.length = slots
  total : sum + totalAmount part = required

theorem Completes.cons (hpart : Completes required slots sum candidates part) :
    Completes required slots sum (output :: candidates) part :=
  ⟨hpart.sublist.cons output, hpart.length, hpart.total⟩

theorem completes_cons (hpart : Completes required (slots + 1) sum (output :: candidates) part) :
    Completes required (slots + 1) sum candidates part ∨
      ∃ rest, Completes required slots (sum + output.amount) candidates rest := by
  obtain ⟨hsublist, hlength, htotal⟩ := hpart
  cases hsublist with
  | cons _ hskip => exact .inl ⟨hskip, hlength, htotal⟩
  | @cons_cons rest _ _ htake =>
    right
    rw [totalAmount_cons] at htotal
    rw [List.length_cons] at hlength
    exact ⟨rest, htake, by omega, by omega⟩

theorem Completes.not_outOfBounds (hdescending : Descending candidates)
    (hpart : Completes required (slots + 1) sum candidates part) :
    ¬OutOfBounds required (slots + 1) sum candidates := by
  have hsublist := hpart.sublist.map WalletOwnedOutput.amount
  have hamounts : (candidates.map WalletOwnedOutput.amount).Pairwise (· ≥ ·) :=
    List.pairwise_map.mpr hdescending
  have hupper := hsublist.sum_le_sum_take hamounts
  have hlower := hsublist.sum_drop_le_sum hamounts
  rw [List.length_map, hpart.length, ← List.map_take] at hupper
  rw [List.length_map, List.length_map, hpart.length, ← List.map_drop] at hlower
  have hlength := hpart.sublist.length_le
  have htotal := hpart.total
  rw [hpart.length] at hlength
  have hpos : 0 < totalAmount part := totalAmount_pos fun hnil => by
    have hcount := hpart.length
    rw [hnil] at hcount
    cases hcount
  unfold OutOfBounds
  unfold totalAmount at *
  omega

/-! ### The tree of a search -/

/-- The nodes below a node, from its loop over the candidates. -/
def branches (nodes : List WalletOwnedOutput → ℕ → List WalletOwnedOutput → List SearchNode)
    (required slots sum : ℕ) (selected : List WalletOwnedOutput) :
    Option ℕ → List WalletOwnedOutput → List SearchNode
  | _, [] => []
  | previousAmount, output :: rest =>
    if (output :: rest).length < slots then []
    else if previousAmount = some output.amount then
      branches nodes required slots sum selected previousAmount rest
    else
      (if sum + output.amount ≤ required then
        nodes rest (sum + output.amount) (selected ++ [output])
      else []) ++ branches nodes required slots sum selected (some output.amount) rest

/-- The nodes of a search without a budget which does not stop at a result, in
the order of the visits. -/
def nodes (required : ℕ) :
    ℕ → List WalletOwnedOutput → ℕ → List WalletOwnedOutput → List SearchNode
  | 0, _, sum, selected => [⟨0, sum, selected⟩]
  | slots + 1, candidates, sum, selected =>
    ⟨slots + 1, sum, selected⟩ ::
      if OutOfBounds required (slots + 1) sum candidates then []
      else branches (nodes required slots) required (slots + 1) sum selected none candidates

/-- Nodes visited up to the first complete one, or all of them. -/
def neededNodes (required : ℕ) (nodes : List SearchNode) : ℕ :=
  min (nodes.findIdx (·.Complete required) + 1) nodes.length

variable {search : ExactSubsetSearch} {node : SearchNode}
  {tree : List WalletOwnedOutput → ℕ → List WalletOwnedOutput → List SearchNode}

theorem neededNodes_cons (hincomplete : ¬node.Complete required)
    (nodes : List SearchNode) :
    neededNodes required (node :: nodes) = neededNodes required nodes + 1 := by
  simp only [neededNodes, List.findIdx_cons, hincomplete, decide_false, cond_false,
    List.length_cons, Nat.add_min_add_right]

/-- Visit a list of nodes within the budget. -/
def walk (required : ℕ) : List SearchNode → ExactSubsetSearch → Result
  | [], search => (none, search)
  | node :: nodes, search =>
    if search.remainingNodes = 0 then (none, { search with exhaustedBudget := true })
    else if node.Complete required then (some node.selected, search.enter node)
    else walk required nodes (search.enter node)

theorem walk_append (hfresh : search.exhaustedBudget = false) (front back : List SearchNode) :
    walk required (front ++ back) search =
      match walk required front search with
      | (some found, next) => (some found, next)
      | (none, next) => if next.exhaustedBudget then (none, next) else walk required back next := by
  induction front generalizing search with
  | nil => simp [walk, hfresh]
  | cons node front ih =>
    simp only [List.cons_append, walk]
    split
    · simp
    · split
      · rfl
      · exact ih hfresh

theorem visitFrom_eq_walk
    {visit : List WalletOwnedOutput → ℕ → List WalletOwnedOutput → ExactSubsetSearch → Result}
    (hrequired : required < 2 ^ 64)
    (hvisit : ∀ candidates sum selected search, search.exhaustedBudget = false →
      visit candidates sum selected search = walk required (tree candidates sum selected) search)
    (previousAmount : Option ℕ) (hfresh : search.exhaustedBudget = false) :
    visitFrom visit required slots sum selected previousAmount candidates search =
      walk required (branches tree required slots sum selected previousAmount candidates)
        search := by
  induction candidates generalizing previousAmount search with
  | nil => rfl
  | cons output rest ih =>
    unfold visitFrom branches
    split
    · rfl
    · split
      · exact ih previousAmount hfresh
      · split
        · next hoverflow =>
          have hlarge : ¬sum + output.amount ≤ required := by
            intro hle
            rw [checkedAdd_eq_some.mpr ⟨rfl, by omega⟩] at hoverflow
            cases hoverflow
          rw [if_neg hlarge]
          exact ih _ hfresh
        · next nextSum hadd =>
          obtain ⟨rfl, -⟩ := checkedAdd_eq_some.mp hadd
          split
          · rw [walk_append hfresh, hvisit _ _ _ _ hfresh]
            split
            · rfl
            · split
              · rfl
              · next hnext => exact ih _ (Bool.eq_false_of_not_eq_true hnext)
          · exact ih _ hfresh

/-- The search visits the nodes of the tree one after the other. -/
theorem visit_eq_walk (hrequired : required < 2 ^ 64) (hfresh : search.exhaustedBudget = false) :
    visit required slots candidates sum selected search =
      walk required (nodes required slots candidates sum selected) search := by
  induction slots generalizing candidates sum selected search with
  | zero =>
    unfold visit nodes walk
    by_cases hsum : sum = required <;> simp [SearchNode.Complete, walk, hsum]
  | succ slots ih =>
    unfold visit nodes walk
    rw [if_neg (show ¬SearchNode.Complete required ⟨slots + 1, _, _⟩ from fun h => by cases h.1)]
    split
    · rfl
    · dsimp only
      split
      · rfl
      · refine visitFrom_eq_walk hrequired ?_ none hfresh
        intro candidates sum selected search hfresh
        exact ih hfresh

/-- What `find` returns when it has visited the nodes of all cardinalities. -/
def outcome : Result →
    Except QuoteAdmissionError (Option (List WalletOwnedOutput)) × ExactSubsetSearch
  | (some found, next) => (.ok (some found), next)
  | (none, next) =>
    (if next.exhaustedBudget then .error .selectionSearchBudgetExceeded else .ok none, next)

theorem findFrom_eq_walk (hrequired : required < 2 ^ 64) (cardinalities : List ℕ)
    (hfresh : search.exhaustedBudget = false) :
    findFrom required candidates cardinalities search = outcome (walk required
      (cardinalities.flatMap fun slots => nodes required slots candidates 0 []) search) := by
  induction cardinalities generalizing search with
  | nil => simp [findFrom, walk, outcome, hfresh]
  | cons cardinality cardinalities ih =>
    unfold findFrom
    rw [List.flatMap_cons, walk_append hfresh, visit_eq_walk hrequired hfresh]
    split
    · rfl
    · split
      · next hexhausted => simp [outcome, hexhausted]
      · next hnext => exact ih (Bool.eq_false_of_not_eq_true hnext)

/-- What a walk through nodes says about them. -/
structure Walked (required : ℕ) (nodes : List SearchNode) (search : ExactSubsetSearch)
    (result : Result) : Prop where
  found : ∀ found, result.1 = some found →
    ∃ node ∈ nodes, node.Complete required ∧ found = node.selected
  complete : result.1 = none → result.2.exhaustedBudget = false →
    ∀ node ∈ nodes, ¬node.Complete required
  budget : result.2.exhaustedBudget = true →
    search.remainingNodes < neededNodes required nodes ∧
      result.2.visited = search.visited ++ nodes.take search.remainingNodes

theorem walk_walked (hfresh : search.exhaustedBudget = false) (nodes : List SearchNode) :
    Walked required nodes search (walk required nodes search) := by
  induction nodes generalizing search with
  | nil => simpa [walk] using ⟨by simp, by simp, by simp [hfresh]⟩
  | cons node nodes ih =>
    rw [walk]
    split
    · next hempty =>
      refine ⟨by simp, by simp, fun _ => ?_⟩
      simp [neededNodes, hempty]
    · next hsome =>
      split
      · next hcomplete =>
        refine ⟨fun found hfound => ⟨node, List.mem_cons_self, hcomplete, ?_⟩, by simp, ?_⟩
        · simpa using hfound.symm
        · simp [enter, hfresh]
      · next hincomplete =>
        have hrest := ih (show (search.enter node).exhaustedBudget = false from hfresh)
        refine ⟨fun found hfound => ?_, fun hnone hbudget => ?_, fun hbudget => ?_⟩
        · obtain ⟨node', hmem, hnode'⟩ := hrest.found found hfound
          exact ⟨node', List.mem_cons_of_mem _ hmem, hnode'⟩
        · rw [List.forall_mem_cons]
          exact ⟨hincomplete, hrest.complete hnone hbudget⟩
        · obtain ⟨hneeded, hvisited⟩ := hrest.budget hbudget
          have hleft : search.remainingNodes = (search.enter node).remainingNodes + 1 :=
            (Nat.sub_one_add_one hsome).symm
          rw [neededNodes_cons hincomplete, hleft, hvisited, List.take_succ_cons]
          exact ⟨Nat.succ_lt_succ hneeded, List.append_assoc _ _ _⟩

/-! ### The complete nodes of the tree -/

theorem completes_of_mem_branches
    (htree : ∀ {candidates sum selected}, node ∈ tree candidates sum selected →
      ∃ part, Completes required slots sum candidates part ∧ node.selected = selected ++ part)
    {previousAmount : Option ℕ}
    (hmem : node ∈ branches tree required (slots + 1) sum selected previousAmount candidates) :
    ∃ part, Completes required (slots + 1) sum candidates part ∧
      node.selected = selected ++ part := by
  induction candidates generalizing previousAmount with
  | nil => cases hmem
  | cons output rest ih =>
    have hskip : ∀ {previous}, node ∈ branches tree required (slots + 1) sum selected previous
        rest → ∃ part, Completes required (slots + 1) sum (output :: rest) part ∧
          node.selected = selected ++ part := by
      intro previous hmem
      obtain ⟨part, hpart, heq⟩ := ih hmem
      exact ⟨part, hpart.cons, heq⟩
    unfold branches at hmem
    split at hmem
    · cases hmem
    · split at hmem
      · exact hskip hmem
      · rcases List.mem_append.mp hmem with hbelow | hafter
        · split at hbelow
          · obtain ⟨part, ⟨hsublist, hlength, htotal⟩, heq⟩ := htree hbelow
            refine ⟨output :: part, ⟨hsublist.cons_cons output, by simp [hlength], ?_⟩, ?_⟩
            · rw [totalAmount_cons]
              omega
            · rw [heq, List.append_assoc, List.singleton_append]
          · cases hbelow
        · exact hskip hafter

theorem completes_of_mem_nodes (hcomplete : node.Complete required)
    (hmem : node ∈ nodes required slots candidates sum selected) :
    ∃ part, Completes required slots sum candidates part ∧ node.selected = selected ++ part := by
  induction slots generalizing candidates sum selected with
  | zero =>
    rw [nodes, List.mem_singleton] at hmem
    subst hmem
    exact ⟨[], ⟨List.nil_sublist _, rfl, by simpa using hcomplete.2⟩, by simp⟩
  | succ slots ih =>
    rw [nodes, List.mem_cons] at hmem
    rcases hmem with rfl | hmem
    · cases hcomplete.1
    · split at hmem
      · cases hmem
      · exact completes_of_mem_branches (fun hmem => ih hmem) hmem

/-- The loop of a node misses no part.  Parts which begin with the amount tried
last are already excluded, by exchanging their first output with the one tried. -/
theorem exists_complete_branches
    (htree : ∀ {candidates sum part} selected, Descending candidates →
      Completes required slots sum candidates part →
        ∃ node ∈ tree candidates sum selected, node.Complete required)
    (previousAmount : Option ℕ) (hdescending : Descending candidates)
    (hprevious : ∀ amount, previousAmount = some amount →
      ∀ rest, ¬Completes required slots (sum + amount) candidates rest)
    (hpart : Completes required (slots + 1) sum candidates part) :
    ∃ node ∈ branches tree required (slots + 1) sum selected previousAmount candidates,
      node.Complete required := by
  induction candidates generalizing previousAmount with
  | nil =>
    have hlength := hpart.length
    rw [List.sublist_nil.mp hpart.sublist] at hlength
    cases hlength
  | cons output rest ih =>
    have hrest : Descending rest := (List.pairwise_cons.mp hdescending).2
    unfold branches
    split
    · next hshort =>
      have hlength := hpart.sublist.length_le
      rw [hpart.length] at hlength
      omega
    · split
      · next hsame =>
        rcases completes_cons hpart with hskip | ⟨tail, htake⟩
        · exact ih _ hrest (fun amount heq tail htail => hprevious amount heq tail htail.cons) hskip
        · exact absurd htake.cons (hprevious _ hsame tail)
      · by_cases htake : ∃ tail, Completes required slots (sum + output.amount) rest tail
        · obtain ⟨tail, htail⟩ := htake
          obtain ⟨node, hmem, hnode⟩ := htree (selected ++ [output]) hrest htail
          have htotal := htail.total
          rw [if_pos (by omega)]
          exact ⟨node, List.mem_append_left _ hmem, hnode⟩
        · rcases completes_cons hpart with hskip | hfound
          · obtain ⟨node, hmem, hnode⟩ := ih (some output.amount) hrest (by
              rintro amount heq tail htail
              cases heq
              exact htake ⟨tail, htail⟩) hskip
            exact ⟨node, List.mem_append_right _ hmem, hnode⟩
          · exact absurd hfound htake

theorem exists_complete_nodes (hdescending : Descending candidates)
    (hpart : Completes required slots sum candidates part) :
    ∃ node ∈ nodes required slots candidates sum selected, node.Complete required := by
  induction slots generalizing candidates sum selected part with
  | zero =>
    have htotal := hpart.total
    rw [List.length_eq_zero_iff.mp hpart.length] at htotal
    exact ⟨_, List.mem_singleton_self _, rfl, htotal⟩
  | succ slots ih =>
    rw [nodes, if_neg (hpart.not_outOfBounds hdescending)]
    obtain ⟨node, hmem, hnode⟩ := exists_complete_branches
      (fun _ hdescending hpart => ih hdescending hpart) none hdescending (by simp) hpart
    exact ⟨node, List.mem_cons_of_mem _ hmem, hnode⟩

end ExactSubsetSearch

/-! ## The greedy pass -/

theorem checkedTotal_eq (hfits : totalAmount candidates < 2 ^ 64) :
    checkedTotal candidates = .ok (totalAmount candidates) := by
  have hfold : ∀ (outputs : List WalletOwnedOutput) (sum : ℕ), sum + totalAmount outputs < 2 ^ 64 →
      outputs.foldlM (fun sum output => checkedAdd 64 sum output.amount) sum =
        some (sum + totalAmount outputs) := by
    intro outputs
    induction outputs with
    | nil =>
      intro sum _
      rfl
    | cons output rest ih =>
      intro sum hsum
      rw [totalAmount_cons] at hsum ⊢
      have hadd : checkedAdd 64 sum output.amount = some (sum + output.amount) :=
        checkedAdd_eq_some.mpr ⟨rfl, by omega⟩
      rw [List.foldlM_cons, hadd, Option.bind_eq_bind, Option.bind_some,
        ih _ (by omega), Nat.add_assoc]
  unfold checkedTotal
  rw [hfold candidates 0 (by omega), Nat.zero_add]
  rfl

theorem takeLargest_eq {limits : PairLimits} : ∀ rest selected : List WalletOwnedOutput,
      ¬validSelectedTotal (totalAmount selected) required limits →
      totalAmount (selected ++ rest) < 2 ^ 64 →
      selected.length ≤ limits.maximumProviderInputs →
      (∃ n ≤ limits.maximumProviderInputs,
        takeLargest required limits rest selected (totalAmount selected) =
          .ok (some (sortByOutpoint ((selected ++ rest).take n)),
            totalAmount ((selected ++ rest).take n)) ∧
        validSelectedTotal (totalAmount ((selected ++ rest).take n)) required limits) ∨
      takeLargest required limits rest selected (totalAmount selected) =
          .ok (none, totalAmount ((selected ++ rest).take limits.maximumProviderInputs)) ∧
        ¬validSelectedTotal (totalAmount
          ((selected ++ rest).take limits.maximumProviderInputs)) required
          limits := by
  intro rest
  induction rest with
  | nil =>
    intro selected hinvalid _ hsize
    right
    rw [List.append_nil, List.take_of_length_le hsize]
    exact ⟨rfl, hinvalid⟩
  | cons output rest ih =>
    intro selected hinvalid hfits hsize
    unfold takeLargest
    by_cases hfull : selected.length = limits.maximumProviderInputs
    · right
      rw [if_pos hfull, ← hfull, List.take_left]
      exact ⟨rfl, hinvalid⟩
    · have hadd : checkedAdd 64 (totalAmount selected) output.amount =
          some (totalAmount (selected ++ [output])) := by
        apply checkedAdd_eq_some.mpr
        rw [totalAmount_append, totalAmount_cons] at hfits
        rw [totalAmount_append, totalAmount_cons, totalAmount_nil]
        omega
      rw [if_neg hfull, hadd]
      by_cases hvalid : validSelectedTotal (totalAmount (selected ++ [output])) required limits
      · left
        have htake : (selected ++ output :: rest).take (selected.length + 1) =
            selected ++ [output] := by
          rw [List.take_append, Nat.add_sub_cancel_left,
            List.take_of_length_le (Nat.le_succ _), List.take_succ_cons, List.take_zero]
        refine ⟨selected.length + 1, by omega, ?_, ?_⟩
        · rw [htake]
          simp only [okOr, ok_bind, if_pos hvalid]
          rfl
        · rwa [htake]
      · have hnext := ih (selected ++ [output]) hvalid
        rw [List.append_assoc, List.singleton_append, List.length_append,
          List.length_singleton] at hnext
        simp only [okOr, ok_bind, if_neg hvalid]
        exact hnext hfits (by omega)

/-! ## Admissible selections -/

theorem sortByOutpoint_perm (outputs : List WalletOwnedOutput) :
    (sortByOutpoint outputs).Perm outputs :=
  List.perm_insertionSort _ _

theorem sortByAmount_perm (outputs : List WalletOwnedOutput) :
    (sortByAmount outputs).Perm outputs :=
  List.perm_insertionSort _ _

theorem sortByAmount_descending (outputs : List WalletOwnedOutput) :
    ExactSubsetSearch.Descending (sortByAmount outputs) := by
  unfold sortByAmount ExactSubsetSearch.Descending
  apply (List.pairwise_insertionSort _ _).imp
  intro output next hle
  rcases Prod.Lex.toLex_le_toLex.mp hle with hlt | ⟨heq, -⟩
  · exact (OrderDual.toDual_lt_toDual.mp hlt).le
  · exact (OrderDual.toDual_inj.mp heq).ge

def Distinct (outputs : List WalletOwnedOutput) : Prop :=
  (outputs.map WalletOwnedOutput.outpoint).Nodup

theorem Distinct.sublist
    (hdistinct : Distinct outputs) (hpart : part.Sublist outputs) : Distinct part :=
  List.Nodup.sublist (hpart.map _) hdistinct

theorem Distinct.perm
    (hdistinct : Distinct outputs) (hperm : others.Perm outputs) : Distinct others :=
  (hperm.map _).nodup_iff.mpr hdistinct

theorem Distinct.nodup (hdistinct : Distinct outputs) : outputs.Nodup :=
  List.Nodup.of_map _ hdistinct

theorem Distinct.sorted_sortByOutpoint
    (hdistinct : Distinct outputs) : Sorted (sortByOutpoint outputs) := by
  have hnodup := hdistinct.perm (sortByOutpoint_perm outputs)
  unfold Distinct at hnodup
  rw [List.nodup_iff_pairwise_ne, List.pairwise_map] at hnodup
  apply ((List.pairwise_insertionSort _ _).and hnodup).imp
  intro output next hpair
  exact lt_of_le_of_ne hpair.1 hpair.2

theorem EligibleInventory.distinct (eligible : EligibleInventory) : Distinct eligible.outputs := by
  unfold Distinct
  rw [List.nodup_iff_pairwise_ne, List.pairwise_map]
  exact eligible.sorted.imp ne_of_lt

section Selection

variable (eligible : EligibleInventory) (asset : AssetId) (required : ℕ) (limits : PairLimits)

/-- A set of eligible outputs of the asset which may cover the required
amount. -/
structure Selectable (selected : List WalletOwnedOutput) : Prop where
  nodup : selected.Nodup
  eligible : ∀ output ∈ selected, output ∈ eligible.outputs ∧ output.asset = asset
  size : selected.length ≤ limits.maximumProviderInputs
  total : totalAmount selected = required ∨
    required + limits.minimumPositiveChange ≤ totalAmount selected

variable {eligible asset required limits}

theorem mem_selectionCandidates : output ∈ selectionCandidates eligible asset ↔
      output ∈ eligible.outputs ∧ output.asset = asset := by
  unfold selectionCandidates
  rw [(sortByOutpoint_perm _).mem_iff, List.mem_filter, decide_eq_true_eq]

theorem distinct_selectionCandidates : Distinct (selectionCandidates eligible asset) :=
  (eligible.distinct.sublist List.filter_sublist).perm (sortByOutpoint_perm _)

theorem totalAmount_selectionCandidates :
    totalAmount (selectionCandidates eligible asset) = totalAmount
      (eligible.outputs.filter fun output => output.asset = asset) :=
  totalAmount_perm (sortByOutpoint_perm _)

theorem Selectable.of_sublist
    (hpart : part.Sublist (sortByAmount (selectionCandidates eligible asset)))
    (hsize : part.length ≤ limits.maximumProviderInputs)
    (htotal : validSelectedTotal (totalAmount part) required limits) :
    Selectable eligible asset required limits (sortByOutpoint part) ∧
      Sorted (sortByOutpoint part) := by
  have hdistinct := (distinct_selectionCandidates.perm
    (sortByAmount_perm (selectionCandidates eligible asset))).sublist hpart
  have hperm := sortByOutpoint_perm part
  refine ⟨⟨(hdistinct.perm hperm).nodup, fun output houtput => ?_, ?_, ?_⟩,
    hdistinct.sorted_sortByOutpoint⟩
  · have hcandidate := hpart.subset (hperm.subset houtput)
    exact mem_selectionCandidates.mp ((sortByAmount_perm _).subset hcandidate)
  · rwa [hperm.length_eq]
  · rw [totalAmount_perm hperm]
    exact validSelectedTotal_iff.mp htotal

theorem Selectable.singleton (houtput : output ∈ selectionCandidates eligible asset)
    (hvalid : validSelectedTotal output.amount required limits) :
    Selectable eligible asset required limits [output] where
  nodup := List.nodup_singleton output
  eligible := by
    intro other hother
    rw [List.mem_singleton.mp hother]
    exact mem_selectionCandidates.mp houtput
  size := limits.inputLimit.1
  total := validSelectedTotal_iff.mp hvalid

variable (hselected : Selectable eligible asset required limits selected)

include hselected in
theorem Selectable.exists_sublist :
    ∃ part, part.Sublist (sortByAmount (selectionCandidates eligible asset)) ∧
      part.length ≤ limits.maximumProviderInputs ∧ totalAmount part = totalAmount selected := by
  have hsubset : selected ⊆ sortByAmount (selectionCandidates eligible asset) := by
    intro output houtput
    apply (sortByAmount_perm _).symm.subset
    exact mem_selectionCandidates.mpr (hselected.eligible output houtput)
  obtain ⟨part, hperm, hpart⟩ := List.subperm_of_subset hselected.nodup hsubset
  refine ⟨part, hpart, ?_, totalAmount_perm hperm⟩
  rw [hperm.length_eq]
  exact hselected.size

include hselected in
theorem Selectable.total_le :
    totalAmount selected ≤ totalAmount
      ((sortByAmount (selectionCandidates eligible asset)).take limits.maximumProviderInputs) := by
  obtain ⟨part, hpart, hsize, htotal⟩ := hselected.exists_sublist
  have hamounts := hpart.map WalletOwnedOutput.amount
  have hbound := hamounts.sum_le_sum_take (List.pairwise_map.mpr (sortByAmount_descending _))
  rw [List.length_map, ← List.map_take] at hbound
  calc totalAmount selected = totalAmount part := htotal.symm
    _ ≤ totalAmount ((sortByAmount (selectionCandidates eligible asset)).take part.length) := hbound
    _ ≤ _ := totalAmount_sublist (List.take_sublist_take_left hsize)

include hselected in
theorem Selectable.required_le : required ≤ totalAmount selected := by
  have htotal := hselected.total
  omega

include hselected in
theorem Selectable.completes (hexact : totalAmount selected = required) (hrequired : 0 < required)
    (hsingle : ∀ output ∈ selectionCandidates eligible asset, output.amount ≠ required) :
    ∃ part, ExactSubsetSearch.Completes required part.length 0
        (exactCandidates (sortByAmount (selectionCandidates eligible asset)) required) part ∧
      2 ≤ part.length ∧ part.length ≤ limits.maximumProviderInputs := by
  obtain ⟨part, hpart, hsize, htotal⟩ := hselected.exists_sublist
  have hfiltered : part.filter (fun output => output.amount ≤ required) = part := by
    apply List.filter_eq_self.mpr
    intro output houtput
    have hle := totalAmount_sublist (List.singleton_sublist.mpr houtput)
    rw [totalAmount_cons, totalAmount_nil] at hle
    rw [decide_eq_true_eq]
    omega
  refine ⟨part, ⟨?_, rfl, by omega⟩, ?_, hsize⟩
  · rw [← hfiltered]
    exact hpart.filter _
  · match part, htotal, hpart with
    | [], htotal, _ =>
      rw [totalAmount_nil] at htotal
      omega
    | [output], htotal, hpart =>
      have hcandidate := (sortByAmount_perm _).subset (hpart.subset List.mem_cons_self)
      rw [totalAmount_cons, totalAmount_nil] at htotal
      exact absurd (by omega) (hsingle output hcandidate)
    | _ :: _ :: _, _, _ =>
      simp

variable (eligible asset required limits)

/-- The nodes of the search for an exact subset, if it had no budget and did not
stop at a result. -/
def searchTree : List SearchNode :=
  let exact := exactCandidates (sortByAmount (selectionCandidates eligible asset)) required
  (List.range' 2 (min limits.maximumProviderInputs exact.length - 1)).flatMap fun slots =>
    ExactSubsetSearch.nodes required slots exact 0 []

/-- The nodes which the search for an exact subset visits. -/
def visitedNodes : List SearchNode :=
  (searchExactSubset (sortByAmount (selectionCandidates eligible asset)) required limits).2.visited

/-- The search visited as many nodes as it may, and would have to visit more. -/
structure OutOfBudget : Prop where
  visited : (visitedNodes eligible asset required limits).length = limits.selectionSearchNodeBudget
  inTree : visitedNodes eligible asset required limits <+: searchTree eligible asset required limits
  needed : limits.selectionSearchNodeBudget <
    ExactSubsetSearch.neededNodes required (searchTree eligible asset required limits)

/-- What each result of a selection says about the inventory. -/
def SelectionOutcome : Except QuoteAdmissionError (List WalletOwnedOutput) → Prop
  | .ok selected =>
    Selectable eligible asset required limits selected ∧ Sorted selected
  | .error .insufficientInventory =>
    totalAmount (selectionCandidates eligible asset) < required
  | .error .inventoryTooFragmented =>
    required ≤ totalAmount (selectionCandidates eligible asset) ∧
      ∀ selected, ¬Selectable eligible asset required limits selected
  | .error .selectionSearchBudgetExceeded =>
    required ≤ totalAmount (selectionCandidates eligible asset) ∧
      OutOfBudget eligible asset required limits
  | .error _ => False

variable {eligible asset required limits}

include hselected in
theorem Selectable.totalAmount_le :
    totalAmount selected ≤ totalAmount (selectionCandidates eligible asset) := by
  obtain ⟨part, hpart, -, htotal⟩ := hselected.exists_sublist
  calc totalAmount selected = totalAmount part := htotal.symm
    _ ≤ totalAmount (sortByAmount (selectionCandidates eligible asset)) := totalAmount_sublist hpart
    _ = _ := totalAmount_perm (sortByAmount_perm _)

/-- The search decides the selection once the largest outputs together have an
invalid total above the required amount: more change is out of reach. -/
theorem selectionOutcome_search (hrequired : 0 < required)
    (hfits : totalAmount (selectionCandidates eligible asset) < 2 ^ 64)
    (hsingle : ∀ output ∈ selectionCandidates eligible asset, output.amount ≠ required)
    (henough : required ≤ totalAmount (selectionCandidates eligible asset))
    (hinvalid : ¬validSelectedTotal (totalAmount
      ((sortByAmount (selectionCandidates eligible asset)).take
        limits.maximumProviderInputs)) required limits) :
    SelectionOutcome eligible asset required limits (do
      match ← (searchExactSubset
        (sortByAmount (selectionCandidates eligible asset)) required limits).1 with
      | some exact => return sortByOutpoint exact
      | none => .error .inventoryTooFragmented) := by
  have hsearch : searchExactSubset (sortByAmount (selectionCandidates eligible asset)) required
      limits = ExactSubsetSearch.outcome (ExactSubsetSearch.walk required
        (searchTree eligible asset required limits)
        { remainingNodes := limits.selectionSearchNodeBudget }) :=
    ExactSubsetSearch.findFrom_eq_walk (henough.trans_lt hfits) _ rfl
  have hwalked : ExactSubsetSearch.Walked required (searchTree eligible asset required limits)
      { remainingNodes := limits.selectionSearchNodeBudget } _ :=
    ExactSubsetSearch.walk_walked rfl _
  generalize ExactSubsetSearch.walk required (searchTree eligible asset required limits)
    { remainingNodes := limits.selectionSearchNodeBudget } = result at hsearch hwalked
  obtain ⟨_ | exact, next⟩ := result
  · rw [hsearch, ExactSubsetSearch.outcome]
    cases hexhausted : next.exhaustedBudget with
    | true =>
      obtain ⟨hneeded, hvisited⟩ := hwalked.budget hexhausted
      refine ⟨henough, ?_, ?_, hneeded⟩
      all_goals rw [visitedNodes, hsearch, ExactSubsetSearch.outcome, hvisited, List.nil_append]
      · rw [List.length_take]
        exact min_eq_left (hneeded.le.trans (min_le_right _ _))
      · exact List.take_prefix _ _
    | false =>
      refine ⟨henough, fun selected hselected => ?_⟩
      rw [validSelectedTotal_iff] at hinvalid
      have hexact : totalAmount selected = required := by
        have hle := hselected.total_le
        have htotal := hselected.total
        omega
      obtain ⟨part, hcompletes, hmany, hsize⟩ := hselected.completes hexact hrequired hsingle
      have hlength := hcompletes.sublist.length_le
      obtain ⟨node, hmem, hnode⟩ := ExactSubsetSearch.exists_complete_nodes
        ((sortByAmount_descending _).sublist List.filter_sublist) hcompletes
      refine hwalked.complete rfl hexhausted node (List.mem_flatMap.mpr ⟨part.length, ?_, hmem⟩)
        hnode
      rw [List.mem_range'_1]
      omega
  · rw [hsearch, ExactSubsetSearch.outcome]
    obtain ⟨node, hmem, hnode, rfl⟩ := hwalked.found exact rfl
    obtain ⟨slots, hslots, hmem⟩ := List.mem_flatMap.mp hmem
    obtain ⟨part, hcompletes, heq⟩ := ExactSubsetSearch.completes_of_mem_nodes hnode hmem
    rw [List.mem_range'_1] at hslots
    have htotal := hcompletes.total
    have hlength := hcompletes.length
    rw [heq, List.nil_append]
    apply Selectable.of_sublist (hcompletes.sublist.trans List.filter_sublist)
    · omega
    · exact .inl (by omega)

theorem selectInventory_outcome (hrequired : 0 < required)
    (hfits : totalAmount (selectionCandidates eligible asset) < 2 ^ 64) :
    SelectionOutcome eligible asset required limits
      (selectInventory eligible asset required limits) := by
  unfold selectInventory
  dsimp only
  split
  · next exact hexact =>
    have hamount := List.find?_some hexact
    rw [decide_eq_true_eq] at hamount
    exact ⟨Selectable.singleton (List.mem_of_find?_eq_some hexact) (.inl hamount),
      List.pairwise_singleton _ _⟩
  · next hexact =>
    have hsingle : ∀ output ∈ selectionCandidates eligible asset, output.amount ≠ required := by
      simpa using List.find?_eq_none.mp hexact
    split
    · next singleton hsingleton =>
      have hmem := List.argmin_mem hsingleton
      rw [List.mem_filter, decide_eq_true_eq] at hmem
      exact ⟨Selectable.singleton hmem.1 hmem.2, List.pairwise_singleton _ _⟩
    · rw [checkedTotal_eq hfits, ok_bind]
      by_cases henough : totalAmount (selectionCandidates eligible asset) < required
      · rw [require, if_neg (not_not_intro henough)]
        exact henough
      · rw [require, if_pos henough, ok_bind]
        have hzero : ¬validSelectedTotal (totalAmount []) required limits := by
          rw [validSelectedTotal_iff, totalAmount_nil]
          omega
        have hgreedy := takeLargest_eq (sortByAmount (selectionCandidates eligible asset)) [] hzero
          (by rwa [List.nil_append, totalAmount_perm (sortByAmount_perm _)]) (Nat.zero_le _)
        rw [List.nil_append, totalAmount_nil] at hgreedy
        rcases hgreedy with ⟨n, hn, hrun, hvalid⟩ | ⟨hrun, hinvalid⟩
        · rw [hrun]
          apply Selectable.of_sublist (List.take_sublist _ _) _ hvalid
          rw [List.length_take]
          omega
        · rw [hrun, ok_bind]
          by_cases hreach : totalAmount ((sortByAmount (selectionCandidates eligible asset)).take
                limits.maximumProviderInputs) < required
          · dsimp only
            rw [require, if_neg (not_not_intro hreach)]
            refine ⟨by omega, fun selected hselected => ?_⟩
            have hle := hselected.total_le
            have hge := hselected.required_le
            omega
          · dsimp only
            rw [require, if_pos hreach, ok_bind]
            exact selectionOutcome_search hrequired hfits hsingle (by omega) hinvalid

end Selection

/-- Selection returns admissible sets in the order of their outpoints, reports
missing inventory exactly when the total is too small and fragmentation only
when no admissible set exists, and fails otherwise only by its budget. -/
theorem selectInventory_sound_complete (eligible : EligibleInventory)
    (asset : AssetId) (required : ℕ) (limits : PairLimits) (hrequired : 0 < required)
    (hfits : totalAmount (eligible.outputs.filter fun output => output.asset = asset) < 2 ^ 64) :
    (∀ selected, selectInventory eligible asset required limits = .ok selected →
      Selectable eligible asset required limits selected ∧ Sorted selected) ∧
    (selectInventory eligible asset required limits = .error .insufficientInventory ↔
      totalAmount (eligible.outputs.filter fun output => output.asset = asset) < required) ∧
    (selectInventory eligible asset required limits = .error .inventoryTooFragmented →
      ¬∃ selected, Selectable eligible asset required limits selected) ∧
    ∀ error, selectInventory eligible asset required limits = .error error →
      error ≠ .insufficientInventory → error ≠ .inventoryTooFragmented →
      error = .selectionSearchBudgetExceeded ∧ OutOfBudget eligible asset required limits := by
  rw [← totalAmount_selectionCandidates] at hfits ⊢
  have houtcome : SelectionOutcome eligible asset required limits _ :=
    selectInventory_outcome hrequired hfits
  refine ⟨fun selected hrun => ?_, ⟨fun hrun => ?_, fun hmissing => ?_⟩,
    fun hrun => ?_, fun error hrun hmissing hfragmented => ?_⟩
  · rwa [hrun] at houtcome
  · rwa [hrun] at houtcome
  · cases hrun : selectInventory eligible asset required limits with
    | ok selected =>
      rw [hrun] at houtcome
      have hge := houtcome.1.required_le
      have hle := houtcome.1.totalAmount_le
      omega
    | error error =>
      rw [hrun] at houtcome
      cases error <;> first
        | rfl
        | exact houtcome.elim
        | exact absurd houtcome.1 (by omega)
  · rw [hrun] at houtcome
    rintro ⟨selected, hselected⟩
    exact houtcome.2 selected hselected
  · rw [hrun] at houtcome
    cases error <;> first
      | exact absurd rfl hmissing
      | exact absurd rfl hfragmented
      | exact houtcome.elim
      | exact ⟨rfl, houtcome.2⟩

/-! Outputs of three, four and five units.  The two largest leave too little
change for eight units, which three and five cover exactly. -/

def sampleItem (vout amount : ℕ) : StoredInventoryItem :=
  ⟨⟨1, vout⟩, 8, amount, 1, 1, 1⟩

def sampleOutput (vout amount : ℕ) (hvalid : (sampleItem vout amount).Valid) :
    WalletOwnedOutput where
  txout := ⟨.confidential false 1, .confidential false 1, .null, [], {}⟩
  item := ⟨sampleItem vout amount, hvalid⟩

def sampleEligible : EligibleInventory where
  token := ⟨1, 1, 1⟩
  anchor := ⟨1, 1⟩
  allocationRevision := 0
  eligibleCommitment := 0
  outputs := [sampleOutput 0 3 (by decide), sampleOutput 1 4 (by decide),
    sampleOutput 2 5 (by decide)]
  sorted := by
    unfold Sorted
    decide

def sampleSelectionLimits (budget : ℕ) (hbudget : 0 < budget) : PairLimits :=
  { sampleLimits with
    maximumProviderInputs := 2
    minimumPositiveChange := 2
    selectionSearchNodeBudget := budget
    inputLimit := by decide
    budget_pos := hbudget }

/-- The search needs three nodes. -/
theorem sampleEligible_selected :
    selectInventory sampleEligible 8 8 (sampleSelectionLimits 3 (by decide)) =
        .ok [sampleOutput 0 3 (by decide), sampleOutput 2 5 (by decide)] ∧
      Selectable sampleEligible 8 8 (sampleSelectionLimits 3 (by decide))
        [sampleOutput 0 3 (by decide), sampleOutput 2 5 (by decide)] ∧
      selectInventory sampleEligible 8 8 (sampleSelectionLimits 2 (by decide)) =
        .error .selectionSearchBudgetExceeded ∧
      OutOfBudget sampleEligible 8 8 (sampleSelectionLimits 2 (by decide)) := by
  have hfound : selectInventory sampleEligible 8 8 (sampleSelectionLimits 3 (by decide)) =
      .ok [sampleOutput 0 3 (by decide), sampleOutput 2 5 (by decide)] := by
    decide +kernel
  have hstopped : selectInventory sampleEligible 8 8 (sampleSelectionLimits 2 (by decide)) =
      .error .selectionSearchBudgetExceeded := by
    decide +kernel
  obtain ⟨hsound, -⟩ := selectInventory_sound_complete sampleEligible 8 8
    (sampleSelectionLimits 3 (by decide)) (by decide) (by decide +kernel)
  obtain ⟨-, -, -, hbudget⟩ := selectInventory_sound_complete sampleEligible 8 8
    (sampleSelectionLimits 2 (by decide)) (by decide) (by decide +kernel)
  exact ⟨hfound, (hsound _ hfound).1, hstopped,
    (hbudget _ hstopped (by decide) (by decide)).2⟩

end DeadcatNode
