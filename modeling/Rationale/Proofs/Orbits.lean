import Rationale.Proofs.Counting

/-!
Walks and orbits. A recursive possession goes round a loop: the goal is decided, a level is taken, the pointer is
followed, and the node it leads to is looked up among those visited. The loop comes to its end within one round more
than there are levels, on any graph of pointers. The nodes it goes through are the orbit of the first under the pointer,
and how it ends is settled by the orbit: where the goal first holds or cannot be decided, where the pointer leads
nowhere or back, or where the levels are used up.
-/

namespace Rationale

variable {N : Type} [Node N]

namespace Framework

variable {F : Framework N} {pointer reached : String}

/-- The node that a pointer leads to from a node in so many steps, if it leads on so far. -/
def orbit (F : Framework N) (pointer : String) (node : N) : Nat → Option N
  | 0 => some node
  | steps + 1 =>
    match F.evaluate pointer node with
    | .ok (.node next) => orbit F pointer next steps
    | _ => none

theorem follow_eq_ok {node next : N} :
    F.follow node pointer = .ok next ↔ F.evaluate pointer node = .ok (.node next) := by
  refine ⟨follow_ok, fun h => ?_⟩
  rw [follow, h]

theorem orbit_succ {node next : N} (h : F.follow node pointer = .ok next) (steps : Nat) :
    F.orbit pointer node (steps + 1) = F.orbit pointer next steps := by
  rw [orbit, follow_eq_ok.mp h]

theorem follow_of_orbit {node next : N} (h : F.orbit pointer node 1 = some next) :
    F.follow node pointer = .ok next := by
  rw [orbit] at h
  split at h
  · rename_i target ht
    cases h
    exact follow_eq_ok.mpr ht
  · cases h

/-- How a walk along an orbit stops after so many hops, with so many levels, if it has left the nodes in `left`
before. -/
inductive Stops (F : Framework N) (pointer reached : String) (levels : Nat) (left : List N) (node : N) :
    Nat → WalkEnd N → Prop
  | arrived {k : Nat} {x : N} (within : k ≤ levels) (there : F.orbit pointer node k = some x)
      (fresh : left.any (Node.same · x) = false) (holds : F.evaluate reached x = .ok (.bool true)) :
      F.Stops pointer reached levels left node k (.arrived x)
  | exhausted {x : N} {v : Value N} (there : F.orbit pointer node levels = some x)
      (fresh : left.any (Node.same · x) = false) (decided : F.evaluate reached x = .ok v) (goesOn : v ≠ .bool true) :
      F.Stops pointer reached levels left node levels (.exhausted x)
  | undecided {k : Nat} {x : N} {e : EvaluationError} (within : k ≤ levels) (there : F.orbit pointer node k = some x)
      (fresh : left.any (Node.same · x) = false) (fails : F.evaluate reached x = .error e) :
      F.Stops pointer reached levels left node k (.undecided (.cannotEvaluate reached x e))
  | lost {k : Nat} {x : N} {v : Value N} {p : Proof} (within : k < levels) (there : F.orbit pointer node k = some x)
      (fresh : left.any (Node.same · x) = false) (decided : F.evaluate reached x = .ok v) (goesOn : v ≠ .bool true)
      (stuck : F.follow x pointer = .error p) : F.Stops pointer reached levels left node k (.lost p)
  | circular {k : Nat} {x : N} (within : k < levels) (there : F.orbit pointer node (k + 1) = some x)
      (again : left.any (Node.same · x) = true) : F.Stops pointer reached levels left node (k + 1) (.circular x)

/-- How a walk goes along an orbit, if it has left the nodes in `before` before. -/
structure Traces (F : Framework N) (pointer reached : String) (levels : Nat) (before : List N) (node : N)
    (hops : List (N × N)) (ending : WalkEnd N) : Prop where
  /-- The hops go from each node of the orbit to the next. -/
  along : ∀ i hop, hops[i]? = some hop →
    F.orbit pointer node i = some hop.1 ∧ F.orbit pointer node (i + 1) = some hop.2
  /-- Only nodes where the goal does not hold are left. -/
  left : ∀ hop ∈ hops, ∃ v, F.evaluate reached hop.1 = .ok v ∧ v ≠ .bool true
  /-- No node is left twice. -/
  apart : (before ++ hops.map (·.1)).Pairwise fun x y => Node.same x y = false
  ends : F.Stops pointer reached levels (before ++ hops.map (·.1)) node hops.length ending

/-- An orbit goes on with the orbit of its next node, and so does the end of a walk along it. -/
theorem Stops.hop {levels k : Nat} {left : List N} {node next : N} {ending : WalkEnd N}
    (followed : F.follow node pointer = .ok next) (h : F.Stops pointer reached levels left next k ending) :
    F.Stops pointer reached (levels + 1) left node (k + 1) ending := by
  have shifted (steps : Nat) := orbit_succ followed steps
  cases h with
  | arrived within there fresh holds => exact .arrived (Nat.succ_le_succ within) ((shifted _).trans there) fresh holds
  | exhausted there fresh decided goesOn => exact .exhausted ((shifted _).trans there) fresh decided goesOn
  | undecided within there fresh fails =>
    exact .undecided (Nat.succ_le_succ within) ((shifted _).trans there) fresh fails
  | lost within there fresh decided goesOn stuck =>
    exact .lost (Nat.succ_lt_succ within) ((shifted _).trans there) fresh decided goesOn stuck
  | circular within there again => exact .circular (Nat.succ_lt_succ within) ((shifted _).trans there) again

/-- The end of a walk along the orbit of the next node, unless the walk ends with the hop to it. -/
theorem Stops.of_hop {levels k : Nat} {left : List N} {node next : N} {ending : WalkEnd N}
    (followed : F.follow node pointer = .ok next) (h : F.Stops pointer reached (levels + 1) left node (k + 1) ending) :
    F.Stops pointer reached levels left next k ending ∨
      k = 0 ∧ ending = .circular next ∧ left.any (Node.same · next) = true := by
  have shifted (steps : Nat) := (orbit_succ followed steps).symm
  cases h with
  | arrived within there fresh holds =>
    exact .inl (.arrived (Nat.le_of_succ_le_succ within) ((shifted _).trans there) fresh holds)
  | exhausted there fresh decided goesOn => exact .inl (.exhausted ((shifted _).trans there) fresh decided goesOn)
  | undecided within there fresh fails =>
    exact .inl (.undecided (Nat.le_of_succ_le_succ within) ((shifted _).trans there) fresh fails)
  | lost within there fresh decided goesOn stuck =>
    exact .inl (.lost (Nat.lt_of_succ_lt_succ within) ((shifted _).trans there) fresh decided goesOn stuck)
  | @circular _ x within there again =>
    rw [← shifted] at there
    cases k with
    | zero => cases there; exact .inr ⟨rfl, rfl, again⟩
    | succ k => exact .inl (.circular (Nat.lt_of_succ_lt_succ within) there again)

theorem Stops.le {levels k : Nat} {left : List N} {node : N} {ending : WalkEnd N}
    (h : F.Stops pointer reached levels left node k ending) : k ≤ levels := by
  cases h with
  | exhausted => exact Nat.le_refl _
  | lost within => exact Nat.le_of_lt within
  | arrived within => exact within
  | undecided within => exact within
  | circular within => exact within

/-- A walk that ends where it begins has not been there. -/
theorem Stops.fresh {levels : Nat} {left : List N} {node : N} {ending : WalkEnd N}
    (h : F.Stops pointer reached levels left node 0 ending) : left.any (Node.same · node) = false := by
  generalize hk : 0 = k at h
  cases h with
  | circular => cases hk
  | arrived within there fresh holds => subst hk; cases there; exact fresh
  | exhausted there fresh decided goesOn => subst hk; cases there; exact fresh
  | undecided within there fresh fails => subst hk; cases there; exact fresh
  | lost within there fresh decided goesOn stuck => subst hk; cases there; exact fresh

/-- A node that was not visited before is the same as none of those left, and can be left as well. -/
theorem apart_concat {before : List N} {node : N} :
    ((before ++ [node]).Pairwise fun x y => Node.same x y = false) ↔
      (before.Pairwise fun x y => Node.same x y = false) ∧ before.any (Node.same · node) = false := by
  rw [List.pairwise_append, List.any_eq_false]
  simp

theorem Walks.traces {levels : Nat} {before : List N} {node : N} {hops : List (N × N)} {ending : WalkEnd N}
    (h : F.Walks pointer reached levels (before ++ [node]) node hops ending)
    (apart : (before ++ [node]).Pairwise fun x y => Node.same x y = false) :
    F.Traces pointer reached levels before node hops ending := by
  -- Where no hop is left, the walk ends at the first node of the orbit.
  have stays {levels : Nat} {before : List N} {node : N} {ending : WalkEnd N}
      (apart : (before ++ [node]).Pairwise fun x y => Node.same x y = false)
      (ends : before.any (Node.same · node) = false → F.Stops pointer reached levels before node 0 ending) :
      F.Traces pointer reached levels before node [] ending := by
    obtain ⟨different, fresh⟩ := apart_concat.mp apart
    refine ⟨fun i hop h => ?_, fun hop h => ?_, ?_, ?_⟩
    · cases h
    · cases h
    · simpa using different
    · simpa using ends fresh
  generalize hvisited : before ++ [node] = visited at h
  induction h generalizing before with
  | undecided fails => subst hvisited; exact stays apart fun fresh => .undecided (Nat.zero_le _) rfl fresh fails
  | arrived holds => subst hvisited; exact stays apart fun fresh => .arrived (Nat.zero_le _) rfl fresh holds
  | exhausted decided goesOn => subst hvisited; exact stays apart fun fresh => .exhausted rfl fresh decided goesOn
  | lost decided goesOn stuck =>
    subst hvisited
    exact stays apart fun fresh => .lost (Nat.succ_pos _) rfl fresh decided goesOn stuck
  | @circular levels visited node next v decided goesOn followed seen =>
    subst hvisited
    have one : F.orbit pointer node 1 = some next := orbit_succ followed 0
    refine ⟨fun i hop h => ?_, fun hop h => ?_, apart, .circular (Nat.succ_pos _) one seen⟩
    · cases i with
      | zero => cases h; exact ⟨rfl, one⟩
      | succ i => cases h
    · cases List.mem_singleton.mp h
      exact ⟨v, decided, goesOn⟩
  -- After a hop the orbit of the next node is that of this one, one step on.
  | @hop levels visited node next v hops ending decided goesOn followed unseen rest ih =>
    subst hvisited
    have rest := ih (apart_concat.mpr ⟨apart, unseen⟩) rfl
    have left : before ++ [node] ++ hops.map (·.1) = before ++ ((node, next) :: hops).map (·.1) := by simp
    refine ⟨fun i hop h => ?_, ?_, left ▸ rest.apart, left ▸ rest.ends.hop followed⟩
    · cases i with
      | zero => cases h; exact ⟨rfl, orbit_succ followed 0⟩
      | succ i =>
        obtain ⟨first, second⟩ := rest.along i hop h
        exact ⟨(orbit_succ followed i).trans first, (orbit_succ followed (i + 1)).trans second⟩
    · exact List.forall_mem_cons.mpr ⟨⟨v, decided, goesOn⟩, rest.left⟩

theorem Traces.walks {levels : Nat} {before : List N} {node : N} {hops : List (N × N)} {ending : WalkEnd N}
    (h : F.Traces pointer reached levels before node hops ending) :
    F.Walks pointer reached levels (before ++ [node]) node hops ending := by
  induction hops generalizing levels before node with
  | nil =>
    obtain ⟨-, -, -, ends⟩ := h
    generalize hk : ([] : List (N × N)).length = k at ends
    cases ends with
    | arrived within there fresh holds => subst hk; cases there; exact .arrived holds
    | exhausted there fresh decided goesOn => subst hk; cases there; exact .exhausted decided goesOn
    | undecided within there fresh fails => subst hk; cases there; exact .undecided fails
    | lost within there fresh decided goesOn stuck =>
      subst hk
      cases there
      obtain ⟨levels, rfl⟩ := Nat.exists_eq_succ_of_ne_zero (Nat.ne_of_gt within)
      exact .lost decided goesOn stuck
    | circular => cases hk
  | cons hop hops ih =>
    obtain ⟨along, left, apart, ends⟩ := h
    obtain ⟨start, next⟩ := hop
    obtain ⟨here, there⟩ := along 0 _ rfl
    cases here
    have followed := follow_of_orbit there
    obtain ⟨⟨v, decided, goesOn⟩, left⟩ := List.forall_mem_cons.mp left
    obtain ⟨levels, rfl⟩ := Nat.exists_eq_succ_of_ne_zero (Nat.ne_of_gt (Nat.lt_of_lt_of_le (Nat.succ_pos _) ends.le))
    have same : before ++ ((start, next) :: hops).map (·.1) = before ++ [start] ++ hops.map (·.1) := by simp
    rw [same] at apart ends
    -- Either the rest of the orbit stops like the whole, or it comes back to a visited node at once.
    rcases ends.of_hop followed with ends | ⟨hlength, rfl, seen⟩
    · have along (i : Nat) (hop : N × N) (h : hops[i]? = some hop) :
          F.orbit pointer next i = some hop.1 ∧ F.orbit pointer next (i + 1) = some hop.2 := by
        rw [← orbit_succ followed, ← orbit_succ followed]
        exact along (i + 1) hop h
      have unseen : (before ++ [start]).any (Node.same · next) = false := by
        cases hops with
        | nil => simpa using ends.fresh
        | cons second rest =>
          cases (along 0 second rfl).1
          refine (apart_concat.mp (apart.sublist ?_)).2
          simp
      exact .hop decided goesOn followed unseen (ih ⟨along, left, apart, ends⟩)
    · cases List.eq_nil_of_length_eq_zero hlength
      exact .circular decided goesOn followed (by simpa using seen)

/-- A walk goes along the orbit, and the orbit settles how it goes. -/
theorem walk_eq_iff {levels : Nat} {node : N} {hops : List (N × N)} {ending : WalkEnd N} :
    F.walk pointer reached levels [node] node = (hops, ending) ↔
      F.Traces pointer reached levels [] node hops ending := by
  refine ⟨fun h => ?_, fun h => h.walks.eq_walk⟩
  have walks : F.Walks pointer reached levels ([] ++ [node]) node hops ending := by
    have walks := F.walk_walks pointer reached levels [node] node
    rwa [h] at walks
  exact walks.traces (List.pairwise_singleton _ _)

end Framework

/-! ### Rounds -/

/-- A walk under way: its hops, the nodes it visited, the one it is at, and the level there. -/
structure Trail (N : Type) where
  hops : List (N × N) := []
  visited : List N
  node : N
  level : Nat

namespace Framework

variable (F : Framework N) (pointer reached : String) (depth : Nat)

/-- One round of a walk that counts its levels up to `depth`: it goes on from the next node, or it ends. -/
def round (t : Trail N) : Trail N ⊕ List (N × N) × WalkEnd N :=
  match F.evaluate reached t.node with
  | .error e => .inr (t.hops, .undecided (.cannotEvaluate reached t.node e))
  | .ok (.bool true) => .inr (t.hops, .arrived t.node)
  | .ok _ =>
    if depth < t.level + 1 then .inr (t.hops, .exhausted t.node)
    else match F.follow t.node pointer with
      | .error failure => .inr (t.hops, .lost failure)
      | .ok next =>
        if t.visited.any (Node.same · next) then .inr (t.hops ++ [(t.node, next)], .circular next)
        else .inl ⟨t.hops ++ [(t.node, next)], t.visited ++ [next], next, t.level + 1⟩

/-- What a walk has come to after so many rounds, unless it ended before: then how it ended. -/
def rounds : Nat → Trail N → Trail N ⊕ List (N × N) × WalkEnd N
  | 0, t => .inl t
  | n + 1, t =>
    match F.round pointer reached depth t with
    | .inl t => rounds n t
    | .inr ended => .inr ended

variable {F pointer reached depth}

/-- At a node where the goal does not hold, a level is taken and the pointer is followed. -/
theorem round_of_goesOn {t : Trail N} {v : Value N} (decided : F.evaluate reached t.node = .ok v)
    (goesOn : v ≠ .bool true) : F.round pointer reached depth t =
      if depth < t.level + 1 then .inr (t.hops, .exhausted t.node)
      else match F.follow t.node pointer with
        | .error failure => .inr (t.hops, .lost failure)
        | .ok next =>
          if t.visited.any (Node.same · next) then .inr (t.hops ++ [(t.node, next)], .circular next)
          else .inl ⟨t.hops ++ [(t.node, next)], t.visited ++ [next], next, t.level + 1⟩ := by
  rw [round, decided]
  split
  · contradiction
  · rename_i h
    cases h
    contradiction
  · rfl

/-- The rounds, which count levels up, make the walk, which counts them down, and one more than there are levels is
enough for it. -/
theorem Walks.rounds {levels level : Nat} {visited : List N} {node : N} {hops : List (N × N)} {ending : WalkEnd N}
    (h : F.Walks pointer reached levels visited node hops ending) (hlevels : levels = depth - level)
    (earlier : List (N × N)) :
    F.rounds pointer reached depth (levels + 1) ⟨earlier, visited, node, level⟩ = .inr (earlier ++ hops, ending) := by
  induction h generalizing level earlier with
  | undecided fails => rw [Framework.rounds, round, fails, List.append_nil]
  | arrived holds => rw [Framework.rounds, round, holds, List.append_nil]
  | exhausted decided goesOn =>
    rw [Framework.rounds, round_of_goesOn decided goesOn, if_pos (by dsimp only; omega), List.append_nil]
  | lost decided goesOn stuck =>
    rw [Framework.rounds, round_of_goesOn decided goesOn, if_neg (by dsimp only; omega), stuck, List.append_nil]
  | circular decided goesOn followed seen =>
    rw [Framework.rounds, round_of_goesOn decided goesOn, if_neg (by dsimp only; omega), followed]
    dsimp only
    rw [if_pos seen]
  | @hop levels visited node next v hops ending decided goesOn followed unseen rest ih =>
    rw [Framework.rounds, round_of_goesOn decided goesOn, if_neg (by dsimp only; omega), followed]
    dsimp only
    rw [if_neg (Bool.eq_false_iff.mp unseen)]
    dsimp only
    rw [ih (by omega), List.append_assoc]
    rfl

end Framework

/-! ### Recursive possessions -/

namespace Framework

variable (F : Framework N) (settings : Settings) (path : List (Goal N)) (goal : Goal N) (level : Nat)

/-- Where templates are filled in for a goal on a level of an explanation. -/
def site : Site N where
  framework := F
  settings := settings
  goal := goal
  level := level
  levelsBelow := settings.explanationDepth - level
  below skipped g := F.expand settings Goal.unresolved (settings.explanationDepth - level) skipped (level + 1 + skipped)
    (path ++ [goal]) g
  beyond := Goal.unresolved

/-- What a recursive possession says of a walk: its hops, and after them how it ended. -/
def recount (pointer adjective : String) (hops : List (N × N)) : WalkEnd N → Proof
  | .arrived x => .all (hops.map (hopClaim pointer) ++ [F.expand settings Goal.unresolved
      (settings.explanationDepth + 1 - (level + hops.length + 1)) 0 (level + hops.length + 1) (path ++ [goal])
      (.value adjective x)])
  | .exhausted x => .all (hops.map (hopClaim pointer) ++ [.claim (.unresolved (Node.label x) pointer)])
  | .lost failure => .all (hops.map (hopClaim pointer) ++ [failure])
  | .undecided failure => .conj (hops.map (hopClaim pointer) ++ [failure])
  | .circular x => .conj (hops.map (hopClaim pointer)
      ++ [.failure ("circular explanation: " ++ Node.label x ++ " is reached again through " ++ pointer)])

variable {F settings path goal level}

/-- The site of a goal is where the template of its adjective is filled in. -/
theorem expand_site {a : Adjective N} (ha : F.adjective? goal.adjective = some a)
    (uncut : path.any (·.same goal) = false) {c : Claim} (hc : F.verdict a goal = .ok c)
    (deep : level ≤ settings.explanationDepth) :
    F.expand settings Goal.unresolved (settings.explanationDepth + 1 - level) 0 level path goal
      = Tactic.applyAll a.tactics
          (.because (a.template.fill (F.site settings path goal level)) c level ⟨a.name, a.kind.origin⟩) := by
  rw [Nat.succ_sub deep, expand, expandGoal_of_ok ha uncut hc]
  rfl

theorem recursivePossession_site {pointer reached : String} {hops : List (N × N)} {ending : WalkEnd N}
    (walks : F.Walks pointer reached (settings.explanationDepth - level) [goal.node] goal.node hops ending)
    (adjective : String) : (F.site settings path goal level).recursivePossession pointer adjective reached
      = F.recount settings path goal level pointer adjective hops ending := by
  have walked : (F.site settings path goal level).framework.walk pointer reached
      (F.site settings path goal level).levelsBelow [(F.site settings path goal level).node]
      (F.site settings path goal level).node = (hops, ending) := walks.eq_walk
  rw [Site.recursivePossession, walked]
  cases ending with
  | arrived x =>
    have below : (F.site settings path goal level).below hops.length (.value adjective x)
        = F.expand settings Goal.unresolved (settings.explanationDepth + 1 - (level + hops.length + 1)) 0
            (level + hops.length + 1) (path ++ [goal]) (.value adjective x) := by
      refine (expand_skipped _ walks.length_hops _ _ _).trans ?_
      congr 1 <;> omega
    rw [recount, ← below]
  | _ => rfl

/-- A recursive possession follows the orbit of its node. The rounds of its walk come to an end within one more than
there are levels, and on none beyond the last, with hops and an end that the orbit settles; and these are what it
says. -/
theorem recursivePossession_traces (F : Framework N) (settings : Settings) (path : List (Goal N)) (goal : Goal N)
    (level : Nat) (pointer adjective reached : String) :
    ∃ hops ending,
      F.rounds pointer reached settings.explanationDepth (settings.explanationDepth - level + 1)
          { visited := [goal.node], node := goal.node, level } = .inr (hops, ending) ∧
      (level ≤ settings.explanationDepth → level + hops.length ≤ settings.explanationDepth) ∧
      (∀ hops' ending', F.Traces pointer reached (settings.explanationDepth - level) [] goal.node hops' ending' ↔
        hops' = hops ∧ ending' = ending) ∧
      Template.fill (F.site settings path goal level) (.recurse pointer adjective reached)
        = some (F.recount settings path goal level pointer adjective hops ending) := by
  obtain ⟨hops, ending, walks⟩ : ∃ hops ending,
      F.Walks pointer reached (settings.explanationDepth - level) [goal.node] goal.node hops ending :=
    ⟨_, _, F.walk_walks _ _ _ _ _⟩
  have short := walks.length_hops
  refine ⟨hops, ending, walks.rounds rfl [], fun deep => by omega, fun hops' ending' => ?_, ?_⟩
  · rw [← walk_eq_iff, walks.eq_walk, Prod.mk.injEq, eq_comm, eq_comm (a := ending)]
  · rw [Template.fill, recursivePossession_site walks]

/-- The sides of a coin lead to one another, and a goal that holds of none is looked for until the first comes again. -/
example : Coin.framework.walk "reverse" "reverse" 5 [.heads] .heads
    = ([(.heads, .tails), (.tails, .heads)], .circular .heads) := rfl

end Framework

end Rationale
