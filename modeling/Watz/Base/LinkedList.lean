import Mathlib.Data.List.Basic
import Mathlib.Logic.Function.Basic

namespace Watz.Base.LinkedList

-- Lists of nodes in memory: each node leads to the next one, and zero ends the list.
variable {α : Type} [Zero α] {next next' : α → α} {nodes before after : List α} {a x : α}

def Chain (next : α → α) : List α → α → Prop
  | [], a => a = 0
  | x :: rest, a => a = x ∧ x ≠ 0 ∧ Chain next rest (next x)

theorem Chain.congr (h : Chain next nodes a) (hsame : ∀ x ∈ nodes, next' x = next x) :
    Chain next' nodes a := by
  induction nodes generalizing a with
  | nil => exact h
  | cons x nodes ih =>
      obtain ⟨ha, hx, hrest⟩ := h
      refine ⟨ha, hx, ?_⟩
      rw [hsame x List.mem_cons_self]
      exact ih hrest fun y hy => hsame y (List.mem_cons_of_mem _ hy)

theorem Chain.head (h : Chain next nodes a) (ha : a ≠ 0) : ∃ rest, nodes = a :: rest := by
  cases nodes with
  | nil => exact absurd h ha
  | cons x rest => exact ⟨rest, by rw [h.1]⟩

theorem Chain.eq_nil (h : Chain next nodes 0) : nodes = [] := by
  cases nodes with
  | nil => rfl
  | cons x rest => exact absurd h.1.symm h.2.1

-- The pointer behind a node leads to the rest.
theorem Chain.drop (h : Chain next (before ++ x :: after) a) : Chain next after (next x) := by
  induction before generalizing a with
  | nil => exact h.2.2
  | cons y before ih => exact ih h.2.2

-- A node is taken out: what leads to it leads to its successor. In front of the first node that
-- is the head of the list.
theorem Chain.unlink (next' : α → α) (h : Chain next (before ++ x :: after) a)
    (hlast : ∀ y ∈ before.getLast?, next' y = next x)
    (hsame : ∀ y ∈ before.dropLast ++ after, next' y = next y) :
    Chain next' (before ++ after) (if before = [] then next x else a) := by
  induction before generalizing a with
  | nil =>
      simp only [List.nil_append, if_true]
      exact h.2.2.congr fun y hy => hsame y (by simpa using hy)
  | cons y before ih =>
      obtain ⟨ha, hy, hrest⟩ := h
      rw [if_neg (List.cons_ne_nil _ _)]
      refine ⟨ha, hy, ?_⟩
      cases before with
      | nil =>
          rw [hlast y rfl]
          exact hrest.drop.congr fun z hz => hsame z (by simpa using hz)
      | cons z before =>
          have hstep := ih hrest (fun w hw => hlast w (by simpa using hw)) (fun w hw => hsame w (by
            simp only [List.dropLast_cons_cons, List.cons_append]
            exact List.mem_cons_of_mem _ hw))
          rw [if_neg (List.cons_ne_nil _ _)] at hstep
          rwa [hsame y (by simp)]

-- The nodes have moved, and a list starts where one of them is now. It is the list from there, if
-- what was behind the last node leads to none of its nodes.
theorem Chain.relocate {nodes' : List α} (move : α → α) (h : Chain next nodes a)
    (h' : Chain next' nodes' (move a)) (ha : a ≠ 0) (hpos : ∀ x ∈ nodes, move x ≠ 0)
    (hstep : ∀ x ∈ nodes, next x ∈ nodes → next' (move x) = move (next x))
    (hlast : ∀ x ∈ nodes, next x = 0 → next' (move x) ∉ nodes') : nodes' = nodes.map move := by
  induction nodes generalizing a nodes' with
  | nil => exact absurd h ha
  | cons x nodes ih =>
      obtain ⟨rfl, -, hrest⟩ := h
      obtain ⟨rest', rfl⟩ := h'.head (hpos a List.mem_cons_self)
      obtain ⟨-, -, hrest'⟩ := h'
      cases nodes with
      | nil =>
          have hnot := hlast a List.mem_cons_self hrest
          cases rest' with
          | nil => rfl
          | cons y rest' =>
              rw [hrest'.1] at hnot
              exact absurd (List.mem_cons_of_mem _ List.mem_cons_self) hnot
      | cons y nodes =>
          have hnext : next a = y := hrest.1
          rw [hstep a List.mem_cons_self (by rw [hnext]; simp)] at hrest'
          rw [ih hrest hrest' (hnext ▸ hrest.2.1) (fun z hz => hpos z (List.mem_cons_of_mem _ hz))
            (fun z hz hin => hstep z (List.mem_cons_of_mem _ hz) (List.mem_cons_of_mem _ hin))
            fun z hz hzero hin => hlast z (List.mem_cons_of_mem _ hz) hzero
              (List.mem_cons_of_mem _ hin)]
          rfl

end Watz.Base.LinkedList
