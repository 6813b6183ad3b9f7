import Mathlib

set_option autoImplicit false

/- Chains of one-way steps. A value is a root extended by links. When roots and
links can be read back off a value, the value carries its whole history. -/

/-- How values begin and how a link extends one. -/
structure OneWay (Root Link Value : Type) where
  root : Root → Value
  extend : Value → Link → Value
  root_inj : ∀ {first second}, root first = root second → first = second
  extend_inj : ∀ {first second left right}, extend first left = extend second right →
    first = second ∧ left = right
  root_ne_extend : ∀ {start value link}, root start ≠ extend value link

namespace OneWay

variable {Root Link Value : Type} (chain : OneWay Root Link Value)

/-- The value some links lead to from a given one. -/
def after (value : Value) (links : List Link) : Value := links.foldl chain.extend value

def value (start : Root) (links : List Link) : Value := chain.after (chain.root start) links

@[simp] theorem after_nil (value : Value) : chain.after value [] = value := rfl

theorem after_append (value : Value) (links more : List Link) :
    chain.after value (links ++ more) = chain.after (chain.after value links) more :=
  List.foldl_append

theorem after_concat (value : Value) (links : List Link) (link : Link) :
    chain.after value (links ++ [link]) = chain.extend (chain.after value links) link :=
  chain.after_append value links [link]

theorem value_concat (start : Root) (links : List Link) (link : Link) :
    chain.value start (links ++ [link]) = chain.extend (chain.value start links) link :=
  chain.after_concat _ links link

/-- A value determines its root and every link, by reading the last one back. -/
theorem value_inj {first second : Root} {left right : List Link}
    (same : chain.value first left = chain.value second right) : first = second ∧ left = right := by
  induction left using List.reverseRecOn generalizing right with
  | nil =>
      rcases List.eq_nil_or_concat' right with rfl | ⟨others, link, rfl⟩
      · exact ⟨chain.root_inj same, rfl⟩
      · rw [value_concat] at same
        exact absurd same chain.root_ne_extend
  | append_singleton links link ih =>
      rcases List.eq_nil_or_concat' right with rfl | ⟨others, other, rfl⟩
      · rw [value_concat] at same
        exact absurd same.symm chain.root_ne_extend
      · rw [value_concat, value_concat] at same
        obtain ⟨previous, last⟩ := chain.extend_inj same
        obtain ⟨sameRoot, sameLinks⟩ := ih previous
        exact ⟨sameRoot, by rw [sameLinks, last]⟩

/-- No value comes out of a chain that starts at it. -/
def Acyclic : Prop := ∀ value links, chain.after value links = value → links = []

/-- Without cycles, the links between two values are determined by the values. -/
theorem after_inj (acyclic : chain.Acyclic) {value : Value} {left right : List Link}
    (same : chain.after value left = chain.after value right) : left = right := by
  induction left using List.reverseRecOn generalizing right with
  | nil => exact (acyclic value right same.symm).symm
  | append_singleton links link ih =>
      rcases List.eq_nil_or_concat' right with rfl | ⟨others, other, rfl⟩
      · exact acyclic value (links ++ [link]) same
      · rw [after_concat, after_concat] at same
        obtain ⟨previous, last⟩ := chain.extend_inj same
        rw [ih previous, last]

end OneWay
