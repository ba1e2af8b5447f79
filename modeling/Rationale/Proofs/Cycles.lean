import Mathlib.Data.List.Perm.Subperm
import Rationale.Proofs.Asks
import Rationale.Proofs.Evaluation

/-!
Cycles are cut where they close. No goal is expanded inside itself, so when finitely many nodes can be told apart,
the stack of goals cannot grow beyond the number of goals there are, and a walk along a pointer cannot go on beyond
the number of nodes. From some depth on, which depends on these numbers only, explanations do not change any more,
and nothing in them is left to levels that are not there.
-/

namespace Rationale

/-- Elements with codes in a list, no two of them with a common code, are no more than the codes. -/
theorem length_le_of_codes {α β : Type} {R : β → α → Prop} {l : List α} {codes : List β}
    (coded : ∀ x ∈ l, ∃ c ∈ codes, R c x) (apart : l.Pairwise fun x y => ∀ c, R c x → ¬R c y) :
    l.length ≤ codes.length := by
  suffices chosen : ∃ cs, cs ⊆ codes ∧ cs.Nodup ∧ cs.length = l.length ∧ ∀ c ∈ cs, ∃ x ∈ l, R c x by
    obtain ⟨cs, hsub, hnodup, hlength, -⟩ := chosen
    exact hlength ▸ (List.subperm_of_subset hnodup hsub).length_le
  induction l with
  | nil => exact ⟨[], List.nil_subset _, List.nodup_nil, rfl, fun _ h => by cases h⟩
  | cons x l ih =>
    obtain ⟨hx, hl⟩ := List.pairwise_cons.mp apart
    obtain ⟨c, hc, hcx⟩ := coded x List.mem_cons_self
    obtain ⟨cs, hsub, hnodup, hlength, hcs⟩ := ih (fun y hy => coded y (List.mem_cons_of_mem _ hy)) hl
    have hnew : c ∉ cs := fun hmem => by
      obtain ⟨y, hy, hcy⟩ := hcs c hmem
      exact hx y hy c hcx hcy
    refine ⟨c :: cs, List.cons_subset.mpr ⟨hc, hsub⟩, List.nodup_cons.mpr ⟨hnew, hnodup⟩, by simp [hlength], ?_⟩
    refine List.forall_mem_cons.mpr ⟨⟨x, List.mem_cons_self, hcx⟩, fun c' hc' => ?_⟩
    obtain ⟨y, hy, hcy⟩ := hcs c' hc'
    exact ⟨y, List.mem_cons_of_mem _ hy, hcy⟩

/-- An element that is the same as none of a list can be put at its end. -/
theorem pairwise_push {α : Type} {same : α → α → Bool} {l : List α} {x : α}
    (h : l.Pairwise fun a b => same a b = false) (hx : l.any (same · x) = false) :
    (l ++ [x]).Pairwise fun a b => same a b = false := by
  refine List.pairwise_append.mpr ⟨h, List.pairwise_singleton _ _, fun a ha b hb => ?_⟩
  rw [List.mem_singleton.mp hb]
  exact Bool.eq_false_iff.mpr (List.any_eq_false.mp hx a ha)

variable {N : Type} [Node N]

/-! ### Stacks -/

/-- No goal of the stack asks the same as one above it. -/
def Goal.Apart (stack : List (Goal N)) : Prop := stack.Pairwise fun g h => g.same h = false

theorem Goal.Apart.push {path : List (Goal N)} {goal : Goal N} (h : Goal.Apart path)
    (hgoal : path.any (·.same goal) = false) : Goal.Apart (path ++ [goal]) :=
  pairwise_push h hgoal

instance (stack : List (Goal N)) : Decidable (Goal.Apart stack) :=
  inferInstanceAs (Decidable (List.Pairwise (fun g h => g.same h = false) stack))

/-- A goal looks at the premise of its adjective only with a stack on which no two goals ask the same, if it came to
such a stack itself. -/
theorem Framework.expandGoal_apart {F : Framework N} {level : Nat} {path : List (Goal N)} {goal : Goal N}
    {premise premise' : Adjective N → List (Goal N) → Option Proof} (apart : Goal.Apart path)
    (same : ∀ a stack, Goal.Apart stack → premise a stack = premise' a stack) :
    F.expandGoal level path goal premise = F.expandGoal level path goal premise' :=
  expandGoal_congr fun a _ _ uncut _ => same a _ (apart.push uncut)

/-- The proof of a goal as `Framework.expand` gives it, but with `instead` for the premises that are given while a stack
is held on which two goals ask the same. -/
def Framework.expandApart (F : Framework N) (settings : Settings) (beyond : Goal N → Proof)
    (instead : Adjective N → List (Goal N) → Option Proof) :
    (levels skipped level : Nat) → (path : List (Goal N)) → Goal N → Proof
  | 0, _, _, _, goal => beyond goal
  | levels + 1, skipped + 1, level, path, goal => F.expandApart settings beyond instead levels skipped level path goal
  | levels + 1, 0, level, path, goal =>
    F.expandGoal level path goal fun a path =>
      if Goal.Apart path then a.template.fill
        { framework := F, settings, goal, level, levelsBelow := levels, beyond
          below := fun skipped g => F.expandApart settings beyond instead levels skipped (level + 1 + skipped) path g }
      else instead a path

/-- No stack that is held in the course of an expansion has two goals on it that ask the same, whatever would be given
for them. -/
theorem Framework.expandApart_eq (F : Framework N) (settings : Settings) (beyond : Goal N → Proof)
    (instead : Adjective N → List (Goal N) → Option Proof) (levels skipped level : Nat) {path : List (Goal N)}
    (apart : Goal.Apart path) (goal : Goal N) :
    F.expandApart settings beyond instead levels skipped level path goal
      = F.expand settings beyond levels skipped level path goal := by
  induction levels generalizing skipped level path goal with
  | zero => rw [expandApart, expand]
  | succ levels ih =>
    cases skipped with
    | succ skipped =>
      rw [expandApart, expand]
      exact ih skipped level apart goal
    | zero =>
      rw [expandApart, expand]
      refine expandGoal_apart apart fun a stack held => ?_
      rw [if_pos held]
      -- The goals below are expanded on the stack that is held, so they are the same by induction.
      have below (k : Nat) (g : Goal N) := ih k (level + 1 + k) held g
      simp only [below]

/-! ### Nodes in reach -/

/-- The nodes that getters lead to from some nodes. -/
inductive Framework.Reaches (F : Framework N) (starts : List N) : N → Prop
  | start {n : N} (h : n ∈ starts) : F.Reaches starts n
  | step {n m : N} {a : Adjective N} {getter : Getter N} {value : Value N} (h : F.Reaches starts n)
      (ha : a ∈ F.adjectives) (hg : a.getter = some getter) (hv : getter n = .ok value)
      (hm : m ∈ value.targets) : F.Reaches starts m

omit [Node N] in
theorem Framework.reaches_keeps (F : Framework N) (starts : List N) : F.Keeps (F.Reaches starts) :=
  fun _ hn _ ha _ _ hg hv _ hm => .step hn ha hg hv hm

/-- The property holds of the nodes of a goal. -/
def Goal.All (P : N → Prop) (g : Goal N) : Prop := P g.node ∧ ∀ o ∈ g.other?, P o

section Covered
variable {F : Framework N} {P : N → Prop} {classes : List N}
  (identity : Equivalence fun a b : N => Node.same a b = true)
  (covered : ∀ n, P n → ∃ c ∈ classes, Node.same c n = true)

include identity covered in
theorem nodes_length_le {ns : List N} (hP : ∀ n ∈ ns, P n) (apart : ns.Pairwise fun a b => Node.same a b = false) :
    ns.length ≤ classes.length := by
  refine length_le_of_codes (R := fun c n => Node.same c n = true) (fun n hn => covered n (hP n hn)) ?_
  refine apart.imp fun hab c hca hcb => ?_
  have hsame := identity.trans (identity.symm hca) hcb
  rw [hab] at hsame
  cases hsame

include identity in
theorem Goal.same_of_common {c g h : Goal N} (hg : c.same g = true) (hh : c.same h = true) : g.same h = true := by
  cases c <;> cases g <;> cases h <;> simp only [Goal.same, Bool.and_eq_true, beq_iff_eq, Bool.false_eq_true] at hg hh ⊢
  · exact ⟨hg.1.symm.trans hh.1, identity.trans (identity.symm hg.2) hh.2⟩
  · exact ⟨⟨hg.1.1.symm.trans hh.1.1, identity.trans (identity.symm hg.1.2) hh.1.2⟩,
      identity.trans (identity.symm hg.2) hh.2⟩

/-- A goal for every adjective and every class or pair of classes. -/
def Framework.goalsOver (F : Framework N) (classes : List N) : List (Goal N) :=
  F.adjectives.flatMap fun a => classes.map (.value a.name ·)
    ++ classes.flatMap fun c => classes.map (.comparison a.name c ·)

omit [Node N] in
theorem Framework.length_goalsOver (F : Framework N) (classes : List N) : (F.goalsOver classes).length
    = F.adjectives.length * (classes.length + classes.length * classes.length) := by
  simp [goalsOver, List.length_flatMap]

include covered in
theorem Framework.mem_goalsOver {g : Goal N} (hg : g.All P) {a : Adjective N} (ha : F.adjective? g.adjective = some a) :
    ∃ c ∈ F.goalsOver classes, c.same g = true := by
  have hmem := adjective?_mem ha
  have hname := adjective?_name ha
  unfold goalsOver
  cases g with
  | value name node =>
    obtain ⟨c, hc, hsame⟩ := covered node hg.1
    refine ⟨.value a.name c, List.mem_flatMap.mpr ⟨a, hmem, ?_⟩, ?_⟩
    · exact List.mem_append_left _ (List.mem_map_of_mem hc)
    · simp only [Goal.same, Bool.and_eq_true, beq_iff_eq]
      exact ⟨hname, hsame⟩
  | comparison name node other =>
    obtain ⟨c, hc, hsame⟩ := covered node hg.1
    obtain ⟨o, ho, hother⟩ := covered other (hg.2 other rfl)
    refine ⟨.comparison a.name c o, List.mem_flatMap.mpr ⟨a, hmem, ?_⟩, ?_⟩
    · exact List.mem_append_right _ (List.mem_flatMap.mpr ⟨c, hc, List.mem_map_of_mem ho⟩)
    · simp only [Goal.same, Bool.and_eq_true, beq_iff_eq]
      exact ⟨⟨hname, hsame⟩, hother⟩

include identity covered in
/-- A stack is no higher than there are goals. -/
theorem Framework.stack_length_le {stack : List (Goal N)} (apart : Goal.Apart stack)
    (hgoals : ∀ g ∈ stack, g.All P ∧ ∃ a, F.adjective? g.adjective = some a) :
    stack.length ≤ F.adjectives.length * (classes.length + classes.length * classes.length) := by
  rw [← F.length_goalsOver classes]
  refine length_le_of_codes (R := fun c g => Goal.same c g = true) (fun g hg => ?_) ?_
  · obtain ⟨hall, a, ha⟩ := hgoals g hg
    exact mem_goalsOver covered hall ha
  · refine List.Pairwise.imp (fun {g h} hgh c hcg hch => ?_) apart
    rw [Goal.same_of_common identity hcg hch] at hgh
    cases hgh

variable (keeps : F.Keeps P)

include identity covered keeps

/-- A walk visits another class with every hop. -/
theorem Framework.Walks.room {pointer reached : String} {levels : Nat} {visited : List N} {node : N}
    {hops : List (N × N)} {ending : WalkEnd N} (h : F.Walks pointer reached levels visited node hops ending)
    (hnode : P node) (hvisited : ∀ n ∈ visited, P n)
    (apart : visited.Pairwise fun a b => Node.same a b = false) :
    (∀ last, ending = .exhausted last → levels + visited.length ≤ classes.length) ∧
      ∀ last, ending = .arrived last → P last ∧ hops.length + visited.length ≤ classes.length := by
  have room {visited : List N} (hvisited : ∀ n ∈ visited, P n)
      (apart : visited.Pairwise fun a b => Node.same a b = false) : 0 + visited.length ≤ classes.length := by
    rw [Nat.zero_add]
    exact nodes_length_le identity covered hvisited apart
  induction h with
  | exhausted decided goesOn => exact ⟨fun _ _ => room hvisited apart, nofun⟩
  | arrived holds =>
    refine ⟨nofun, fun _ h => ?_⟩
    cases h
    exact ⟨hnode, room hvisited apart⟩
  | @hop levels visited node next v hops ending decided goesOn followed unseen rest ih =>
    have hnext : P next := follow_targets keeps hnode followed
    have hvisited' : ∀ n ∈ visited ++ [next], P n :=
      List.forall_mem_append.mpr ⟨hvisited, List.forall_mem_singleton.mpr hnext⟩
    obtain ⟨ihexhausted, iharrived⟩ := ih hnext hvisited' (pairwise_push apart unseen)
    rw [List.length_append, List.length_singleton] at ihexhausted iharrived
    refine ⟨fun last h => ?_, fun last h => ?_⟩
    · have := ihexhausted last h
      omega
    · obtain ⟨hlast, hlength⟩ := iharrived last h
      refine ⟨hlast, ?_⟩
      rw [List.length_cons]
      omega
  | _ => exact ⟨nofun, nofun⟩

theorem Framework.walk_not_exhausted {levels : Nat} (enough : classes.length ≤ levels) {node : N} (hnode : P node)
    (pointer reached : String) (last : N) : (F.walk pointer reached levels [node] node).2 ≠ .exhausted last := by
  intro hend
  have room := (F.walk_walks pointer reached levels [node] node).room identity covered keeps hnode
    (List.forall_mem_singleton.mpr hnode) (List.pairwise_singleton _ _)
  have := room.1 last hend
  rw [List.length_singleton] at this
  omega

omit identity covered in
theorem Framework.lead_within {goal : Goal N} (hgoal : goal.All P) {via : Option String} {forwardPointer : Bool}
    {asked : List (Goal N)} {node : N} (h : F.lead goal via forwardPointer = .ok (asked, node)) :
    P node ∧ ∀ g ∈ asked, g.All P := by
  unfold Framework.lead at h
  cases via with
  | none =>
    cases h
    exact ⟨hgoal.1, fun _ hg => by cases hg⟩
  | some pointer =>
    cases hf : F.follow goal.node pointer with
    | error p => simp [hf, Except.map] at h
    | ok target =>
      simp only [hf, Except.map, Except.ok.injEq, Prod.mk.injEq] at h
      obtain ⟨rfl, rfl⟩ := h
      refine ⟨follow_targets keeps hgoal.1 hf, fun g hg => ?_⟩
      split at hg
      · rw [List.mem_singleton.mp hg]
        exact ⟨hgoal.1, fun _ ho => by cases ho⟩
      · cases hg

/-- The goals asked for are about nodes in reach, and fewer levels are skipped than there are classes. -/
theorem Template.asks_within {goal : Goal N} (hgoal : goal.All P) (levels : Nat) (t : Template) :
    ∀ ask ∈ t.asks F goal levels, ask.2.All P ∧ ask.1 < classes.length := by
  have pos : 0 < classes.length := by
    obtain ⟨c, hc, -⟩ := covered goal.node hgoal.1
    exact List.length_pos_of_mem hc
  have value {name : String} {n : N} (hn : P n) : (Goal.value name n).All P := ⟨hn, fun _ ho => by cases ho⟩
  have comparison {name : String} {n m : N} (hn : P n) (hm : P m) : (Goal.comparison name n m).All P :=
    ⟨hn, fun _ ho => by cases ho; exact hm⟩
  have next {goals : List (Goal N)} (h : ∀ g ∈ goals, g.All P) :
      ∀ ask ∈ Goal.asked goals, ask.2.All P ∧ ask.1 < classes.length :=
    List.forall_mem_map.mpr fun g hg => ⟨h g hg, pos⟩
  -- Getters deliver nodes in reach from nodes in reach, so only the levels that a walk skips are at issue.
  induction t with
  | assume a =>
    rw [Template.asks]
    exact fun _ h => by cases h
  | possess adjective via explainFurther forwardPointer =>
    rw [Template.asks]
    split
    · exact fun _ h => by cases h
    · rename_i pointed node hl
      obtain ⟨hnode, hpointed⟩ := Framework.lead_within keeps hgoal hl
      refine next (List.forall_mem_append.mpr ⟨hpointed, fun g hg => ?_⟩)
      split at hg
      · rw [List.mem_singleton.mp hg]
        exact value hnode
      · cases hg
  | compare name pointer =>
    rw [Template.asks]
    split
    · exact fun _ h => by cases h
    · rename_i target hf
      exact next (List.forall_mem_singleton.mpr (comparison hgoal.1 (Framework.follow_targets keeps hgoal.1 hf)))
  | compareGroup name group positive =>
    rw [Template.asks]
    split
    · exact fun _ h => by cases h
    · split
      · exact fun _ h => by cases h
      · rename_i members hm
        refine next (List.forall_mem_append.mpr ⟨fun g hg => ?_, List.forall_mem_map.mpr fun m hmem => ?_⟩)
        · split at hg
          · rw [List.mem_singleton.mp hg]
            exact value hgoal.1
          · cases hg
        · exact comparison hgoal.1 (Framework.evaluateGroup_targets keeps hgoal.1 hm m hmem)
  | compared adjective =>
    rw [Template.asks]
    split
    · exact fun _ h => by cases h
    · rename_i other ho
      refine next (List.forall_mem_cons.mpr ⟨value hgoal.1, List.forall_mem_singleton.mpr ?_⟩)
      exact value (hgoal.2 other ho)
  | all items ih =>
    rw [Template.asks, Template.asksAll_eq]
    intro ask hask
    obtain ⟨t, ht, hask⟩ := List.mem_flatMap.mp hask
    exact ih t ht ask hask
  | branch c ifTrue ifFalse ihTrue ihFalse =>
    rw [Template.asks]
    split
    · exact fun _ h => by cases h
    · rename_i pointed subject hl
      obtain ⟨hsubject, hpointed⟩ := Framework.lead_within keeps hgoal hl
      split
      · exact fun _ h => by cases h
      · refine List.forall_mem_append.mpr ⟨next (List.forall_mem_append.mpr ⟨hpointed, ?_⟩), ?_⟩
        · exact List.forall_mem_singleton.mpr (value hsubject)
        · split
          · exact ihTrue
          · exact ihFalse
  | recurse pointer adjective reached =>
    rw [Template.asks]
    split
    · rename_i hops node hw
      have walks := F.walk_walks pointer reached levels [goal.node] goal.node
      rw [hw] at walks
      have room := walks.room identity covered keeps hgoal.1 (List.forall_mem_singleton.mpr hgoal.1)
        (List.pairwise_singleton _ _)
      -- The nodes of a walk are all different, so it has fewer hops than there are classes.
      obtain ⟨hnode, hlength⟩ := room.2 node rfl
      rw [List.length_singleton] at hlength
      dsimp only at hlength
      exact List.forall_mem_singleton.mpr ⟨value hnode, by omega⟩
    · exact fun _ h => by cases h

/-- Where there are enough levels for every stack that can come, more levels change nothing, and nothing is left
to the levels beyond. -/
theorem Framework.expand_enough (settings : Settings) {beyond beyond' : Goal N → Proof} {levels levels' : Nat}
    {skipped level : Nat} {path : List (Goal N)} {goal : Goal N} (hgoal : goal.All P) (apart : Goal.Apart path)
    (hpath : ∀ g ∈ path, g.All P ∧ ∃ a, F.adjective? g.adjective = some a) (hle : levels ≤ levels')
    (enough : (F.adjectives.length * (classes.length + classes.length * classes.length) + 1 - path.length)
      * (classes.length + 1) + skipped ≤ levels) :
    F.expand settings beyond levels skipped level path goal
      = F.expand settings beyond' levels' skipped level path goal := by
  -- The measure: for every goal that still fits on the stack, as many levels as a walk can skip.
  induction levels generalizing levels' skipped level path goal with
  | zero =>
    -- No stack is full, so there is room for one goal more, and there is a level for it.
    have hlength := stack_length_le identity covered apart hpath
    have := Nat.mul_pos (show 0 < F.adjectives.length * (classes.length + classes.length * classes.length) + 1
      - path.length by omega) (show 0 < classes.length + 1 by omega)
    omega
  | succ levels ih =>
    obtain ⟨levels', rfl⟩ : ∃ n, levels' = n + 1 := ⟨levels' - 1, by omega⟩
    have hle := Nat.le_of_succ_le_succ hle
    cases skipped with
    | succ skipped =>
      rw [expand, expand]
      exact ih hgoal apart hpath hle (by omega)
    | zero =>
      rw [expand, expand]
      refine expandGoal_congr fun a _ ha uncut _ => ?_
      have apart' := apart.push uncut
      have hpath' : ∀ g ∈ path ++ [goal], g.All P ∧ ∃ a, F.adjective? g.adjective = some a :=
        List.forall_mem_append.mpr ⟨hpath, List.forall_mem_singleton.mpr ⟨hgoal, a, ha⟩⟩
      have hlength := stack_length_le identity covered apart' hpath'
      rw [List.length_append, List.length_singleton] at hlength
      -- Below the goal one level is gone, but the stack has one goal more.
      obtain ⟨room, hroom⟩ : ∃ room, F.adjectives.length * (classes.length + classes.length * classes.length)
        = path.length + 1 + room := Nat.exists_eq_add_of_le hlength
      have hfirst : F.adjectives.length * (classes.length + classes.length * classes.length) + 1 - path.length
        = room + 1 + 1 := by omega
      have hnext : F.adjectives.length * (classes.length + classes.length * classes.length) + 1
        - (path ++ [goal]).length = room + 1 := by
        rw [List.length_append, List.length_singleton]
        omega
      rw [hfirst, Nat.succ_mul] at enough
      have hpos : 0 < (room + 1) * (classes.length + 1) := Nat.mul_pos (by omega) (by omega)
      have same : Site.Matches
          { framework := F, settings, goal, level, levelsBelow := levels, beyond
            below := fun skipped g =>
              F.expand settings beyond levels skipped (level + 1 + skipped) (path ++ [goal]) g }
          levels' beyond' :=
        .of_enough (show 0 < levels by omega) hle
          (walk_not_exhausted identity covered keeps (show classes.length ≤ levels by omega) hgoal.1)
      refine Template.fill_congr same fun ask hask => ?_
      obtain ⟨hall, hskipped⟩ := Template.asks_within identity covered keeps hgoal levels a.template ask hask
      refine ih hall apart' hpath' hle ?_
      rw [hnext]
      omega

end Covered

/-! ### Explanations -/

/-- A depth that is enough for some number of classes of nodes and of adjectives. -/
def levelBound (classes adjectives : Nat) : Nat :=
  (adjectives * (classes + classes * classes) + 1) * (classes + 1)

/-- In a valid framework evaluations end; no goal is ever expanded inside itself, so nothing is made of a stack that
has two goals which ask the same; and when the nodes in reach fall into finitely many classes, explanations are the same
from a depth on that depends on the number of classes and of adjectives only, whatever stands for goals below the last
level. -/
theorem Framework.explain_settles {F : Framework N} (valid : F.validate = .ok ())
    (identity : Equivalence fun a b : N => Node.same a b = true) {node : N} {other : Option N} {classes : List N}
    (covered : ∀ n, F.Reaches (node :: other.toList) n → ∃ c ∈ classes, Node.same c n = true)
    (settings : Settings) (adjective : String) :
    (∀ name n, Settled (F.evaluate name n)) ∧ (∀ name n m, Settled (F.compare name n m)) ∧
      (∀ beyond instead levels goal, F.expandApart settings beyond instead levels 0 1 [] goal
        = F.expand settings beyond levels 0 1 [] goal) ∧
      ∀ d ≥ levelBound classes.length F.adjectives.length, ∀ beyond,
        F.explain { settings with explanationDepth := d } node adjective other beyond
          = F.explain { settings with explanationDepth := levelBound classes.length F.adjectives.length }
            node adjective other := by
  refine ⟨evaluate_settled valid, compare_settled valid,
    fun beyond instead levels goal => F.expandApart_eq settings beyond instead levels 0 1 List.Pairwise.nil goal,
    fun d hd beyond => ?_⟩
  have explanation_eq {a : Adjective N} {goal : Goal N} (hgoal : a.goal node other = .ok goal) :
      F.explanation { settings with explanationDepth := d } goal beyond
        = F.explanation { settings with explanationDepth := levelBound classes.length F.adjectives.length } goal := by
    -- The goal is about the nodes that were asked about, and reaching starts with them.
    have hall : goal.All (F.Reaches (node :: other.toList)) := by
      unfold Adjective.goal at hgoal
      split at hgoal
      · cases hgoal
        exact ⟨.start List.mem_cons_self, fun o ho => .start (by cases ho; simp)⟩
      · cases hgoal
      · cases hgoal
      · cases hgoal
        exact ⟨.start List.mem_cons_self, fun o ho => by cases ho⟩
    unfold Framework.explanation
    rw [F.expand_explanationDepth settings _ d, F.expand_explanationDepth settings _ (levelBound _ _)]
    have enough : F.expand settings Goal.unresolved (levelBound classes.length F.adjectives.length) 0 1 [] goal
        = F.expand settings beyond d 0 1 [] goal :=
      F.expand_enough identity covered (F.reaches_keeps _) settings hall List.Pairwise.nil (fun _ h => by cases h) hd
        (Nat.le_refl _)
    rw [enough]
  unfold Framework.explain
  cases F.adjective? adjective with
  | none => rfl
  | some a =>
    cases hgoal : a.goal node other with
    | error e => simp only [hgoal, bind, Except.bind]
    | ok goal => simp only [hgoal, bind, Except.bind, explanation_eq hgoal]; rfl

theorem Coin.identity : Equivalence fun a b : Coin => Node.same a b = true where
  refl := fun a => decide_eq_true (Eq.refl a)
  symm := fun h => decide_eq_true (of_decide_eq_true h).symm
  trans := fun h h' => decide_eq_true ((of_decide_eq_true h).trans (of_decide_eq_true h'))

theorem Coin.explain_settles_within : levelBound 2 2 = 39 ∧ ∀ d ≥ 39, ∀ beyond,
    Coin.framework.explain { explanationDepth := d } .heads "reverse" none beyond
      = Coin.framework.explain { explanationDepth := 39 } .heads "reverse" := by
  have covered : ∀ n, Coin.framework.Reaches (.heads :: Option.toList none) n →
      ∃ c ∈ [Coin.heads, .tails], Node.same c n = true := by
    intro n _
    cases n with
    | heads => exact ⟨.heads, by simp, rfl⟩
    | tails => exact ⟨.tails, by simp, rfl⟩
  exact ⟨rfl, (Framework.explain_settles rfl Coin.identity covered {} "reverse").2.2.2⟩

end Rationale
