/-
Finding by bisection where a property of the items of an array ends.
-/
namespace LineCensus

/-- The end of the part of `xs` that `p` holds of, searched between `low` and
`high`; `p` must hold of a beginning of `xs` and of nothing after it. -/
def partitionPoint (xs : Array α) (p : α → Bool) (low high : Nat) : Nat :=
  if _h : low < high then
    let middle := (low + high) / 2
    match xs[middle]? with
    | some x => if p x then partitionPoint xs p (middle + 1) high else partitionPoint xs p low middle
    | none => low
  else low
termination_by high - low

/-- Where `p` holds of a beginning and of nothing after it, the search ends between the two. -/
theorem partitionPoint_eq {xs : Array α} {p : α → Bool} {before after : List α} {low high : Nat}
    (hxs : xs.toList = before ++ after) (hbefore : ∀ x ∈ before, p x = true) (hafter : ∀ x ∈ after, p x = false)
    (hlow : low ≤ before.length) (hhigh : before.length ≤ high) (hsize : high ≤ xs.size) :
    partitionPoint xs p low high = before.length := by
  have hget (i : Nat) : xs[i]? = (before ++ after)[i]? := by rw [← hxs, Array.getElem?_toList]
  fun_induction partitionPoint xs p low high with
  | case1 low high h middle x hx hp ih =>
    apply ih _ hhigh hsize
    rw [hget, List.getElem?_append] at hx
    split at hx
    · omega
    · have := hafter x (List.mem_of_getElem? hx)
      rw [hp] at this
      cases this
  | case2 low high h middle x hx hp ih =>
    apply ih hlow _ (by omega)
    rw [hget, List.getElem?_append] at hx
    split at hx
    · exact absurd (hbefore x (List.mem_of_getElem? hx)) hp
    · omega
  | case3 low high h middle hx =>
    rw [Array.getElem?_eq_none_iff] at hx
    omega
  | case4 low high h => omega

end LineCensus
