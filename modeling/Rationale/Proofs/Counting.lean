import Rationale.Proofs.Levels

/-!
How levels are counted. An explanation starts on level 1, and every call made for it is on the level after that of its
caller, or further on by the hops of a walk. No call is on a level further than one past the explanation depth, and
only these levels matter, so an explanation that counts them in words of 32 bits is the same.
-/

namespace Rationale

variable {N : Type} [Node N]

/-- The calls made in the course of an explanation, with their levels: for the goals templates ask for, and for values
that are only stated. -/
inductive Framework.Calls (F : Framework N) (depth : Nat) (root : Goal N) : Nat → Goal N → Prop
  | root : F.Calls depth root 1 root
  | asked {level skipped : Nat} {goal g : Goal N} {a : Adjective N} (caller : F.Calls depth root level goal)
      (expanded : level ≤ depth) (ha : F.adjective? goal.adjective = some a)
      (asked : (skipped, g) ∈ a.template.asks F goal (depth - level)) :
      F.Calls depth root (level + 1 + skipped) g
  | stated {level : Nat} {goal : Goal N} (caller : F.Calls depth root level goal) (expanded : level ≤ depth)
      (adjective : String) (node : N) : F.Calls depth root (level + 1) (.value adjective node)

/-- The proof of a goal on a level, as `Framework.expand` gives it, with levels that `word` counts up to the explanation
depth. -/
def Framework.climb (F : Framework N) (settings : Settings) (beyond : Goal N → Proof) (word : Nat → Nat) :
    (fuel level : Nat) → (path : List (Goal N)) → Goal N → Proof
  | 0, _, _, goal => beyond goal
  | fuel + 1, level, path, goal =>
    if settings.explanationDepth < level then beyond goal
    else F.expandGoal level path goal fun a path => a.template.fill
      { framework := F, settings, goal, level, beyond
        levelsBelow := settings.explanationDepth + 1 - word (level + 1)
        below := fun skipped g => F.climb settings beyond word fuel (word (level + 1 + skipped)) path g }

namespace Framework

variable {F : Framework N} {settings : Settings}

theorem Walks.length_hops {pointer goal : String} {levels : Nat} {visited : List N} {node : N} {hops : List (N × N)}
    {ending : WalkEnd N} (h : F.Walks pointer goal levels visited node hops ending) : hops.length ≤ levels := by
  induction h with
  | circular decided goesOn followed seen => exact Nat.succ_le_succ (Nat.zero_le _)
  | hop decided goesOn followed unseen rest ih => exact Nat.succ_le_succ ih
  | _ => exact Nat.zero_le _

end Framework

/-- A template skips no more levels than there are. -/
theorem Template.asks_skipped {F : Framework N} {goal : Goal N} {levels : Nat} (t : Template) :
    ∀ ask ∈ t.asks F goal levels, ask.1 ≤ levels := by
  have asked {goals : List (Goal N)} : ∀ ask ∈ Goal.asked goals, ask.1 ≤ levels :=
    List.forall_mem_map.mpr fun _ _ => Nat.zero_le _
  have none_asked : ∀ ask ∈ ([] : List (Ask N)), ask.1 ≤ levels := fun _ h => by cases h
  induction t with
  | assume a =>
    rw [asks]
    exact none_asked
  | possess adjective via explainFurther forwardPointer =>
    rw [asks]
    split
    · exact none_asked
    · exact asked
  | compare comparison pointer =>
    rw [asks]
    split
    · exact none_asked
    · exact asked
  | compareGroup comparison group positive =>
    rw [asks]
    split
    · exact none_asked
    · split
      · exact none_asked
      · exact asked
  | compared adjective =>
    rw [asks]
    split
    · exact none_asked
    · exact asked
  | all items ih =>
    rw [asks, asksAll_eq]
    intro ask hask
    obtain ⟨t, ht, hask⟩ := List.mem_flatMap.mp hask
    exact ih t ht ask hask
  | branch c ifTrue ifFalse ihTrue ihFalse =>
    rw [asks]
    split
    · exact none_asked
    · split
      · exact none_asked
      · refine List.forall_mem_append.mpr ⟨asked, ?_⟩
        split
        · exact ihTrue
        · exact ihFalse
  | recurse pointer adjective reached =>
    have walks := F.walk_walks pointer reached levels [goal.node] goal.node
    rw [asks]
    split
    · rename_i hops node hw
      rw [hw] at walks
      exact List.forall_mem_singleton.mpr walks.length_hops
    · exact none_asked

namespace Framework

variable {F : Framework N} {settings : Settings}

theorem Calls.bound {depth level : Nat} {root goal : Goal N} (h : F.Calls depth root level goal) :
    1 ≤ level ∧ level ≤ depth + 1 := by
  induction h with
  | root => exact ⟨Nat.le_refl _, Nat.le_add_left _ _⟩
  | asked caller expanded ha asked ih =>
    have skips := Template.asks_skipped _ _ asked
    dsimp only at skips
    omega
  | stated caller expanded adjective node ih => omega

theorem expand_skipped (beyond : Goal N → Proof) {levels skipped : Nat} (hle : skipped ≤ levels) (level : Nat)
    (path : List (Goal N)) (goal : Goal N) :
    F.expand settings beyond levels skipped level path goal
      = F.expand settings beyond (levels - skipped) 0 level path goal := by
  induction skipped generalizing levels with
  | zero => rfl
  | succ skipped ih =>
    obtain ⟨levels, rfl⟩ : ∃ n, levels = n + 1 := ⟨levels - 1, by omega⟩
    rw [expand, ih (Nat.le_of_succ_le_succ hle), Nat.add_sub_add_right]

/-- Counted up, a goal is expanded as it is counted down, if the levels of its calls are counted right. -/
theorem climb_eq_expand {beyond : Goal N → Proof} {word : Nat → Nat} {root : Goal N}
    (counts : ∀ level g, F.Calls settings.explanationDepth root level g → word level = level) {fuel level : Nat}
    (path : List (Goal N)) {goal : Goal N} (call : F.Calls settings.explanationDepth root level goal)
    (enough : settings.explanationDepth < fuel + level) :
    F.climb settings beyond word fuel level path goal
      = F.expand settings beyond (settings.explanationDepth + 1 - level) 0 level path goal := by
  induction fuel generalizing level path goal with
  | zero =>
    rw [climb, Nat.sub_eq_zero_of_le (by omega), expand]
  | succ fuel ih =>
    rw [climb]
    split
    · rw [Nat.sub_eq_zero_of_le (by omega), expand]
    · rename_i hlevel
      have expanded := Nat.le_of_not_lt hlevel
      rw [Nat.succ_sub expanded, expand]
      refine expandGoal_congr fun a _ ha _ _ => ?_
      have next : word (level + 1) = level + 1 := counts _ _ (call.stated expanded goal.adjective goal.node)
      -- A goal that is asked for is called at the next level, so its level is counted right as well.
      have agrees : Site.Agrees {
          framework := F, settings, goal, level, levelsBelow := settings.explanationDepth - level, beyond
          below := fun skipped g => F.expand settings beyond (settings.explanationDepth - level) skipped
            (level + 1 + skipped) (path ++ [goal]) g }
          (fun skipped g => F.climb settings beyond word fuel (word (level + 1 + skipped)) (path ++ [goal]) g)
          (a.template.asks F goal (settings.explanationDepth - level)) := by
        rintro ⟨skipped, g⟩ asked
        have hcall := call.asked expanded ha asked
        have skips := Template.asks_skipped _ _ asked
        dsimp only at skips ⊢
        rw [counts _ _ hcall, ih _ hcall (by omega), expand_skipped beyond skips]
        congr 1
        omega
      rw [next, Nat.add_sub_add_right]
      exact (Template.fill_congr ⟨Iff.rfl, fun _ _ => rfl, .inl rfl⟩ agrees).symm

end Framework

/-! ### Explanations -/

/-- What holds of the levels that are counted while a goal is explained. -/
structure Framework.CountsUp (F : Framework N) (settings : Settings) (goal : Goal N) : Prop where
  /-- They end one past the explanation depth. -/
  bound : ∀ level g, F.Calls settings.explanationDepth goal level g → 1 ≤ level ∧ level ≤ settings.explanationDepth + 1
  /-- The hops of a walk stay within them. -/
  hops : ∀ level g, F.Calls settings.explanationDepth goal level g → level ≤ settings.explanationDepth →
    ∀ pointer reached, level + (F.walk pointer reached (settings.explanationDepth - level) [g.node] g.node).1.length
      ≤ settings.explanationDepth
  /-- No others matter. -/
  calls : ∀ word : Nat → Nat, (∀ level g, F.Calls settings.explanationDepth goal level g → word level = level) →
    ∀ fuel ≥ settings.explanationDepth, F.climb settings Goal.unresolved word fuel 1 [] goal
      = F.expand settings Goal.unresolved settings.explanationDepth 0 1 [] goal
  /-- Words of 32 bits hold them. -/
  words : settings.explanationDepth < UInt32.size - 1 →
    (∀ level g, F.Calls settings.explanationDepth goal level g → level < UInt32.size) ∧
    ∀ fuel ≥ settings.explanationDepth, F.climb settings Goal.unresolved (· % UInt32.size) fuel 1 [] goal
      = F.expand settings Goal.unresolved settings.explanationDepth 0 1 [] goal

theorem Framework.countsUp (F : Framework N) (settings : Settings) (goal : Goal N) : F.CountsUp settings goal := by
  have calls (word : Nat → Nat) (counts : ∀ level g, F.Calls settings.explanationDepth goal level g → word level = level)
      (fuel : Nat) (enough : fuel ≥ settings.explanationDepth) : F.climb settings Goal.unresolved word fuel 1 [] goal
        = F.expand settings Goal.unresolved settings.explanationDepth 0 1 [] goal :=
    climb_eq_expand counts [] .root (Nat.lt_succ_of_le enough)
  refine ⟨fun level g h => h.bound, fun level g h expanded pointer reached => ?_, calls, fun small => ?_⟩
  · have short := (F.walk_walks pointer reached (settings.explanationDepth - level) [g.node] g.node).length_hops
    omega
  have fits : ∀ level g, F.Calls settings.explanationDepth goal level g → level < UInt32.size := by
    intro level g h
    have hbound := h.bound.2
    omega
  exact ⟨fits, calls _ fun level g h => Nat.mod_eq_of_lt (fits level g h)⟩

/-- The levels of an explanation rise from 1 to at most the explanation depth, under any tactics, and no level beyond
the next is counted for it. -/
theorem Framework.explain_levels {F : Framework N} {settings : Settings} {node : N} {adjective : String}
    {other : Option N} {x : Argument} (answered : F.explain settings node adjective other = .ok x) :
    x.proof.Levelled settings.explanationDepth ∧
    ∃ a goal, F.adjective? adjective = some a ∧ a.goal node other = .ok goal ∧
      x.proof = F.explanation settings goal ∧ F.CountsUp settings goal := by
  obtain ⟨a, goal, ha, hgoal, rfl⟩ := explain_eq_ok.mp answered
  refine ⟨(within_explanation goal).levelled fun premise c d o root => level_explanation root, ?_⟩
  exact ⟨a, goal, ha, hgoal, rfl, F.countsUp settings goal⟩

/-- The comparison of clubs with the other suits takes two levels, and 32 bits count them. -/
theorem Suit.levels_compacted : ∃ x,
    (framework [.compactSame]).explain { explanationDepth := 2 } clubs "best" = .ok x ∧ x.proof.Levelled 2 ∧
    ∃ goal, x.proof = (framework [.compactSame]).explanation { explanationDepth := 2 } goal ∧
      (framework [.compactSame]).climb { explanationDepth := 2 } Goal.unresolved (· % UInt32.size) 2 1 [] goal
        = (framework [.compactSame]).expand { explanationDepth := 2 } Goal.unresolved 2 0 1 [] goal := by
  obtain ⟨x, answered⟩ : ∃ x, (framework [.compactSame]).explain { explanationDepth := 2 } clubs "best" = .ok x :=
    ⟨_, rfl⟩
  obtain ⟨levelled, a, goal, -, -, hx, counted⟩ := Framework.explain_levels answered
  exact ⟨x, answered, levelled, goal, hx, (counted.words (by decide)).2 2 (Nat.le_refl _)⟩

end Rationale
