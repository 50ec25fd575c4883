/-
Paths by their parts. The path of an entry of a directory has the parts of the
directory's path and one more, the entry's name (`parts_child`), whether that path ends in
a slash or not. So the names that lead down from a directory can be read off the path they
make (`parts_descend`), and two ways down are the same once their paths are
(`descend_injective`).

Paths are compared part by part, and that is a linear order of lists of parts: the instances
say it is transitive and total, and paths that are equal in it have the same parts
(`compare_eq_iff`).
-/
import LineCensus.Path

namespace LineCensus.Path

variable {p q : Path} {n : List UInt8}

/-- A name that an entry of a directory can have. -/
structure IsName (n : List UInt8) : Prop where
  ne_nil : n ≠ []
  slash_notMem : slash ∉ n
  zero_notMem : 0 ∉ n
  ne_here : n ≠ [dot]
  ne_up : n ≠ [dot, dot]
  length_le : n.length ≤ 255

instance (n : List UInt8) : Decidable (IsName n) :=
  decidable_of_iff (n ≠ [] ∧ slash ∉ n ∧ 0 ∉ n ∧ n ≠ [dot] ∧ n ≠ [dot, dot] ∧ n.length ≤ 255)
    ⟨fun ⟨h₁, h₂, h₃, h₄, h₅, h₆⟩ => ⟨h₁, h₂, h₃, h₄, h₅, h₆⟩,
      fun ⟨h₁, h₂, h₃, h₄, h₅, h₆⟩ => ⟨h₁, h₂, h₃, h₄, h₅, h₆⟩⟩

/-- The path that goes down by these names. -/
def descend (p : Path) (names : List (List UInt8)) : Path := names.foldl child p

@[simp] theorem descend_nil (p : Path) : p.descend [] = p := rfl

theorem descend_append (p : Path) (names more : List (List UInt8)) :
    p.descend (names ++ more) = (p.descend names).descend more := List.foldl_append

@[simp] theorem descend_cons (p : Path) (n : List UInt8) (names : List (List UInt8)) :
    p.descend (n :: names) = (p.child n).descend names := rfl

/-! ## The pieces of an entry's path -/

theorem child_bytes (hp : p.bytes ≠ []) (s : List UInt8) :
    ∃ front, front ≠ [] ∧ (p.child s).bytes = front ++ s ∧
    p.bytes <+: front := by
  rw [child, if_neg (by simpa using hp)]
  split
  · exact ⟨p.bytes, hp, rfl, List.prefix_rfl⟩
  · exact ⟨p.bytes ++ [slash], by simp, by simp, List.prefix_append _ _⟩

theorem child_bytes_ne_nil (hp : p.bytes ≠ []) (s : List UInt8) : (p.child s).bytes ≠ [] := by
  obtain ⟨front, hfront, hbytes, -⟩ := child_bytes hp s
  simp [hbytes, hfront]

theorem zero_notMem_child (hzero : 0 ∉ p.bytes) (hn : IsName n) : 0 ∉ (p.child n).bytes := by
  have := hn.zero_notMem
  rw [child]
  split
  · exact this
  · split <;> simp [hzero, this, slash]

theorem isAbsolute_child (hp : p.bytes ≠ []) (s : List UInt8) : (p.child s).isAbsolute = p.isAbsolute := by
  obtain ⟨front, -, hbytes, more, rfl⟩ := child_bytes hp s
  obtain ⟨b, bs, hcons⟩ := List.exists_cons_of_ne_nil hp
  rw [isAbsolute, isAbsolute, hbytes, hcons]
  rfl

/-- What is cut from an entry's path: what is cut from the directory's, but for the empty
piece after a slash at its end, and what is cut from the name. -/
theorem splitOn_child (hp : p.bytes ≠ []) (s : List UInt8) : ∃ front, front ≠ [] ∧
    (p.child s).bytes.splitOn slash = front ++ s.splitOn slash ∧
    (p.bytes.splitOn slash = front ∨ p.bytes.splitOn slash = front ++ [[]]) := by
  rw [child, if_neg (by simpa using hp)]
  split
  next hslash =>
    obtain ⟨bs, hbytes⟩ := List.getLast?_eq_some_iff.1 (beq_iff_eq.1 hslash)
    refine ⟨bs.splitOn slash, List.splitOn_ne_nil _ _, ?_, .inr ?_⟩
    · rw [hbytes, List.append_assoc, List.singleton_append]
      exact List.splitOnP_append_cons bs s (beq_self_eq_true slash)
    · rw [hbytes]
      exact List.splitOnP_append_cons bs [] (beq_self_eq_true slash)
  next =>
    exact ⟨p.bytes.splitOn slash, List.splitOn_ne_nil _ _,
      List.splitOnP_append_cons p.bytes s (beq_self_eq_true slash), .inl rfl⟩

theorem splitOn_of_notMem (h : slash ∉ n) : n.splitOn slash = [n] :=
  List.splitOnP_eq_singleton fun _ hb => beq_eq_false_iff_ne.2 fun he => h (he ▸ hb)

/-! ## Parts -/

/-- The parts that pieces stand for. -/
def partsOf (absolute : Bool) (pieces : List (List UInt8)) : List Part :=
  (if absolute then [.root] else []) ++ (pieces.head?.bind (partOf (!absolute))).toList ++
    pieces.tail.filterMap (partOf false)

theorem parts_eq (p : Path) : p.parts = partsOf p.isAbsolute (p.bytes.splitOn slash) := rfl

theorem partsOf_concat {pieces : List (List UInt8)} (h : pieces ≠ []) (absolute : Bool) (s : List UInt8) :
    partsOf absolute (pieces ++ [s]) = partsOf absolute pieces ++ (partOf false s).toList := by
  obtain ⟨first, rest, rfl⟩ := List.exists_cons_of_ne_nil h
  have hlast : [s].filterMap (partOf false) = (partOf false s).toList := by
    cases hs : partOf false s <;> simp [hs]
  simp only [partsOf, List.cons_append, List.head?_cons, List.tail_cons, List.filterMap_append, List.append_assoc,
    hlast]

theorem partOf_name (hn : IsName n) : partOf false n = some (.name n) := by
  simp [partOf, hn.ne_nil, hn.ne_here, hn.ne_up]

/-- The path of an entry: one more part. -/
theorem parts_child (hp : p.bytes ≠ []) (hn : IsName n) : (p.child n).parts = p.parts ++ [.name n] := by
  obtain ⟨front, hfront, hchild, hpieces⟩ := splitOn_child hp n
  have hparts : p.parts = partsOf p.isAbsolute front := by
    rw [parts_eq]
    rcases hpieces with hpieces | hpieces
    · rw [hpieces]
    · rw [hpieces, partsOf_concat hfront]
      exact List.append_nil _
  rw [parts_eq, isAbsolute_child hp, hchild, splitOn_of_notMem hn.slash_notMem, partsOf_concat hfront,
    partOf_name hn, hparts]
  rfl

theorem parts_descend (hp : p.bytes ≠ []) {names : List (List UInt8)} (hnames : ∀ n ∈ names, IsName n) :
    (p.descend names).parts = p.parts ++ names.map .name := by
  induction names generalizing p with
  | nil => simp
  | cons n names ih =>
    rw [List.forall_mem_cons] at hnames
    rw [descend_cons, ih (child_bytes_ne_nil hp n) hnames.2, parts_child hp hnames.1, List.map_cons,
      List.append_assoc, List.singleton_append]

/-- Different ways down make different paths. -/
theorem descend_injective (hp : p.bytes ≠ []) {names more : List (List UInt8)} (hnames : ∀ n ∈ names, IsName n)
    (hmore : ∀ n ∈ more, IsName n) (h : (p.descend names).parts = (p.descend more).parts) : names = more := by
  rw [parts_descend hp hnames, parts_descend hp hmore, List.append_cancel_left_eq] at h
  exact (List.map_inj_right fun _ _ => Part.name.inj).1 h

theorem partsBelow?_descend (hp : p.bytes ≠ []) {names : List (List UInt8)} (hnames : ∀ n ∈ names, IsName n) :
    p.partsBelow? (p.descend names) = some (names.map .name) := by
  rw [partsBelow?, parts_descend hp hnames, if_pos (List.isPrefixOf_iff_prefix.2 (List.prefix_append _ _)),
    List.drop_left]

/-! ## The length of a path -/

theorem isTooLong_iff : p.isTooLong = true ↔ 4096 ≤ p.bytes.length := decide_eq_true_iff

theorem isTooLong_eq_false_iff : p.isTooLong = false ↔ p.bytes.length < 4096 := by
  rw [← Bool.not_eq_true, isTooLong_iff, Nat.not_le]

theorem length_add_le_child (p : Path) (s : List UInt8) : p.bytes.length + s.length ≤ (p.child s).bytes.length := by
  by_cases hp : p.bytes = []
  · refine Nat.le_of_eq ?_
    rw [child, if_pos (by simpa using hp), hp, List.length_nil, Nat.zero_add]
  · obtain ⟨front, -, hbytes, hfront⟩ := child_bytes hp s
    rw [hbytes, List.length_append]
    exact Nat.add_le_add_right hfront.length_le _

theorem length_add_le_descend (p : Path) (names : List (List UInt8)) :
    p.bytes.length + names.flatten.length ≤ (p.descend names).bytes.length := by
  induction names generalizing p with
  | nil => simp
  | cons n names ih =>
    have := length_add_le_child p n
    have := ih (p.child n)
    rw [descend_cons, List.flatten_cons, List.length_append]
    omega

/-! ## The order of paths -/

theorem compareBytes_eq (a b : List UInt8) : compareBytes a b = Ord.compare a b := by
  induction a generalizing b with
  | nil => cases b <;> rfl
  | cons x xs ih =>
    cases b with
    | nil => rfl
    | cons y ys =>
      have hhead : Ord.compare x y = if x < y then .lt else if x = y then .eq else .gt := rfl
      rw [compareBytes, ih, List.compare_cons_cons, hhead]
      rcases Std.lt_trichotomy x y with hlt | rfl | hgt
      · rw [if_pos hlt, if_pos hlt]
        rfl
      · rw [if_neg (UInt8.lt_irrefl x), if_neg (UInt8.lt_irrefl x), if_neg (UInt8.lt_irrefl x), if_pos rfl]
        rfl
      · have hne : x ≠ y := fun h => UInt8.lt_irrefl y (h ▸ hgt)
        rw [if_neg (UInt8.lt_asymm hgt), if_pos hgt, if_neg (UInt8.lt_asymm hgt), if_neg hne]
        rfl

/-- The bytes of a name; other parts have none. -/
def Part.bytes : Part → List UInt8
  | .name n => n
  | _ => []

theorem Part.compare_eq : Part.compare = compareLex (compareOn Part.rank) (compareOn Part.bytes) := by
  funext a b
  cases a <;> cases b <;>
    simp only [Part.compare, compareLex, compareOn, Part.rank, Part.bytes, compareBytes_eq] <;> rfl

instance : Std.TransCmp Part.compare := by
  rw [Part.compare_eq]
  infer_instance

instance : Std.LawfulEqCmp Part.compare where
  compare_self {a} := by
    rw [Part.compare_eq]
    exact Std.ReflCmp.compare_self
  eq_of_compare {a b} h := by
    rw [Part.compare_eq, compareLex_eq_eq] at h
    have hrank : a.rank = b.rank := Std.LawfulEqCmp.eq_of_compare h.1
    have hbytes : a.bytes = b.bytes := Std.LawfulEqCmp.eq_of_compare h.2
    cases a <;> cases b <;> simp_all [Part.rank, Part.bytes]

theorem compareParts_eq : compareParts = List.compareLex Part.compare := by
  funext a b
  induction a generalizing b with
  | nil => cases b <;> rfl
  | cons x xs ih =>
    cases b with
    | nil => rfl
    | cons y ys => rw [compareParts, List.compareLex_cons_cons, ih]

instance : Std.TransCmp compareParts := by
  rw [compareParts_eq]
  infer_instance

instance : Std.LawfulEqCmp compareParts := by
  rw [compareParts_eq]
  infer_instance

instance : Std.TransCmp compare where
  eq_swap {p q} := @Std.OrientedCmp.eq_swap _ compareParts _ p.parts q.parts
  isLE_trans {p q s} := @Std.TransCmp.isLE_trans _ compareParts _ p.parts q.parts s.parts

theorem compare_eq_iff : p.compare q = .eq ↔ p.parts = q.parts :=
  @Std.LawfulEqCmp.compare_eq_iff_eq _ compareParts _ p.parts q.parts

@[simp] theorem same_iff : p.same q = true ↔ p.parts = q.parts := beq_iff_eq

end LineCensus.Path
