import Mathlib.Logic.Function.Basic
import TickWaves.Proofs.Graph.Ring

/-!
# The search with three marks

A search can also mark every node as unvisited, as being visited or as visited, and look
up the place of a node on its path only when an edge leads to a node that is being visited
(`Cycle.walk`).  That look-up never fails: the nodes being visited are those on the path at
all times (`Cycle.Trail.Fits`), so the search with marks is step for step the one that
looks at the path itself (`Cycle.matches_walkAll`).
-/

namespace TickWaves.Cycle

inductive Mark
  | unvisited
  /-- The search has entered the node and not left it. -/
  | visiting
  | visited
  deriving DecidableEq

/-- What a search with marks keeps. -/
structure Trail where
  marks : Nat → Mark
  /-- The path that the search is on, its latest node last. -/
  path : List Nat

namespace Trail

def start : Trail := ⟨fun _ => .unvisited, []⟩

def enter (trail : Trail) (node : Nat) : Trail :=
  ⟨Function.update trail.marks node .visiting, trail.path ++ [node]⟩

def leave (trail : Trail) (node : Nat) : Trail :=
  ⟨Function.update trail.marks node .visited, trail.path.dropLast⟩

end Trail

/-- What a search with marks comes to. -/
inductive Walk
  /-- A cycle, in the order of its edges. -/
  | cycle (nodes : List Nat)
  | clear (trail : Trail)
  /-- A node that is being visited is not on the path, or the room has run out. -/
  | lost

namespace Walk

def andThen (walk : Walk) (onward : Trail → Walk) : Walk :=
  match walk with
  | cycle nodes => cycle nodes
  | clear trail => onward trail
  | lost => lost

@[simp]
theorem cycle_andThen (nodes : List Nat) (onward : Trail → Walk) :
    (cycle nodes).andThen onward = cycle nodes := rfl

@[simp]
theorem clear_andThen (trail : Trail) (onward : Trail → Walk) :
    (clear trail).andThen onward = onward trail := rfl

end Walk

/-- Searches from a node that is unvisited. -/
def walk (next : Nat → List Nat) : (room : Nat) → Trail → (node : Nat) → Walk
  | 0, _, _ => .lost
  | room + 1, trail, node =>
      let walked := (next node).foldl
        (fun (walked : Walk) other => walked.andThen fun trail =>
          match trail.marks other with
          | .visiting =>
              match trail.path.idxOf? other with
              | none => .lost
              | some place => .cycle (trail.path.drop place)
          | .unvisited => walk next room trail other
          | .visited => .clear trail)
        (.clear (trail.enter node))
      walked.andThen fun trail => .clear (trail.leave node)

def walkAll (next : Nat → List Nat) (room : Nat) (nodes : List Nat) : Walk :=
  nodes.foldl
    (fun (walked : Walk) node => walked.andThen fun trail =>
      match trail.marks node with
      | .unvisited => walk next room trail node
      | _ => .clear trail)
    (.clear .start)

theorem idxOf?_append_cons {left right : List Nat} {node : Nat} (hleft : node ∉ left) :
    (left ++ node :: right).idxOf? node = some left.length := by
  induction left with
  | nil => simp [List.idxOf?_cons]
  | cons head left ih =>
      rw [List.mem_cons, not_or] at hleft
      have hne : ¬ (head == node) = true := by simpa using Ne.symm hleft.1
      rw [List.cons_append, List.idxOf?_cons, if_neg hne, ih hleft.2, Option.map_some,
        List.length_cons]

/-- The nodes being visited are those on the path, and the visited ones are finished. -/
structure Trail.Fits (trail : Trail) (path finished : List Nat) : Prop where
  path_eq : trail.path = path.reverse
  marks : ∀ node, trail.marks node =
    if node ∈ path then .visiting else if node ∈ finished then .visited else .unvisited

namespace Trail.Fits

variable {trail : Trail} {path finished : List Nat} {node : Nat}

theorem start : Trail.start.Fits [] [] where
  path_eq := rfl
  marks _ := rfl

theorem enter (hfits : trail.Fits path finished) (node : Nat) :
    (trail.enter node).Fits (node :: path) finished where
  path_eq := by
    rw [Trail.enter, hfits.path_eq, List.reverse_cons]
  marks other := by
    by_cases heq : other = node
    · simp [Trail.enter, heq]
    · simp [Trail.enter, heq, hfits.marks]

theorem leave (hfits : trail.Fits (node :: path) finished) (hfresh : node ∉ path) :
    (trail.leave node).Fits path (node :: finished) where
  path_eq := by
    rw [Trail.leave, hfits.path_eq, List.reverse_cons, List.dropLast_concat]
  marks other := by
    by_cases heq : other = node
    · simp [Trail.leave, heq, hfresh]
    · simp [Trail.leave, heq, hfits.marks]

/-- A node that is being visited is found on the path, and what follows it there is what
an edge to it closes. -/
theorem exists_idxOf?_eq (hfits : trail.Fits path finished) (hdistinct : path.Nodup)
    (hnode : node ∈ path) :
    ∃ place, trail.path.idxOf? node = some place ∧
      trail.path.drop place = closedBy node path := by
  obtain ⟨left, right, rfl⟩ := List.append_of_mem hnode
  have hleft := not_mem_of_nodup_append_cons hdistinct
  have hright : node ∉ right.reverse := by
    rw [List.mem_reverse]
    exact (List.nodup_cons.mp (List.nodup_append.mp hdistinct).2.1).1
  have hpath : trail.path = right.reverse ++ node :: left.reverse := by
    rw [hfits.path_eq]
    simp
  refine ⟨right.reverse.length, ?_, ?_⟩
  · rw [hpath, idxOf?_append_cons hright]
  · rw [hpath, closedBy_append hleft, List.drop_left]

end Trail.Fits

/-- The two searches come to the same. -/
def Matches (path : List Nat) : Search → Walk → Prop
  | .cycle nodes, walked => walked = .cycle nodes
  | .clear finished, walked => ∃ trail, walked = .clear trail ∧ trail.Fits path finished

theorem Matches.andThen {path path' : List Nat} {found : Search} {walked : Walk}
    {onward : List Nat → Search} {onward' : Trail → Walk}
    (hmatches : Matches path found walked)
    (honward : ∀ finished trail, trail.Fits path finished →
      Matches path' (onward finished) (onward' trail)) :
    Matches path' (found.andThen onward) (walked.andThen onward') := by
  cases found with
  | cycle nodes =>
      obtain rfl : walked = .cycle nodes := hmatches
      rfl
  | clear finished =>
      obtain ⟨trail, rfl, hfits⟩ := hmatches
      exact honward finished trail hfits

theorem Matches.foldl {path others : List Nat} {step : List Nat → Nat → Search}
    {step' : Trail → Nat → Walk} {found : Search} {walked : Walk}
    (hmatches : Matches path found walked)
    (hstep : ∀ other ∈ others, ∀ finished trail, trail.Fits path finished →
      Matches path (step finished other) (step' trail other)) :
    Matches path
      (others.foldl (fun (found : Search) other =>
        found.andThen fun finished => step finished other) found)
      (others.foldl (fun (walked : Walk) other =>
        walked.andThen fun trail => step' trail other) walked) := by
  induction others generalizing found walked with
  | nil => exact hmatches
  | cons other others ih =>
      apply ih (hmatches.andThen (hstep other List.mem_cons_self))
      intro later hlater
      exact hstep later (List.mem_cons_of_mem _ hlater)

theorem matches_walk {next : Nat → List Nat} {nodes : List Nat}
    (hnext : ∀ node, next node ⊆ nodes) {room : Nat} {path finished : List Nat}
    {node : Nat} {trail : Trail} (hnodup : path.Nodup) (hpath : path ⊆ nodes)
    (hnode : node ∈ nodes) (hfresh : node ∉ path) (hroom : nodes.length ≤ room + path.length)
    (hfits : trail.Fits path finished) :
    Matches path (visit next room path finished node) (walk next room trail node) := by
  induction room generalizing path finished node trail with
  | zero =>
      have hlt := length_lt_of_not_mem_path hnodup hpath hnode hfresh
      omega
  | succ room ih =>
      have hextended : (node :: path).Nodup := List.nodup_cons.mpr ⟨hfresh, hnodup⟩
      rw [visit, walk]
      apply Matches.andThen
      · have hentered : Matches (node :: path) (.clear finished) (.clear (trail.enter node)) :=
          ⟨_, rfl, hfits.enter node⟩
        apply hentered.foldl
        intro other hother finished trail hfits
        rw [hfits.marks other]
        by_cases hmem : other ∈ node :: path
        · obtain ⟨place, hplace, hdrop⟩ := hfits.exists_idxOf?_eq hextended hmem
          rw [if_pos hmem, if_pos hmem, hplace, ← hdrop]
          rfl
        · rw [if_neg hmem, if_neg hmem]
          by_cases hdone : other ∈ finished
          · rw [if_pos hdone, if_pos hdone]
            exact ⟨trail, rfl, hfits⟩
          · rw [if_neg hdone, if_neg hdone]
            apply ih hextended (List.cons_subset.mpr ⟨hnode, hpath⟩) (hnext node hother) hmem _
              hfits
            rw [List.length_cons]
            omega
      · intro finished trail hfits
        exact ⟨_, rfl, hfits.leave hfresh⟩

/-- From the beginning, the two searches come to the same. -/
theorem matches_walkAll {next : Nat → List Nat} {nodes : List Nat}
    (hnext : ∀ node, next node ⊆ nodes) :
    Matches [] (search next nodes.length nodes) (walkAll next nodes.length nodes) := by
  have hstart : Matches [] (.clear []) (.clear .start) := ⟨_, rfl, Trail.Fits.start⟩
  apply hstart.foldl
  intro node hnode finished trail hfits
  rw [hfits.marks node, if_neg List.not_mem_nil]
  by_cases hdone : node ∈ finished
  · rw [if_pos hdone, if_pos hdone]
    exact ⟨trail, rfl, hfits⟩
  · rw [if_neg hdone, if_neg hdone]
    exact matches_walk hnext List.nodup_nil (List.nil_subset _) hnode List.not_mem_nil
      (Nat.le_refl _) hfits

end TickWaves.Cycle
