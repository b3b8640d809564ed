import ItemExpr.Proofs.AttributeValue.Contents

/-! # Fingerprints tell values apart

Everything that a fingerprint is put together from says where it ends: a container gives its count
before its parts (`Delimits`). So a fingerprint can be taken off the front of a longer sequence
(`delimits_fingerprint`), and two values have the same fingerprint exactly if they are equal
(`fingerprint_eq_iff`). With the equivalence and the contents that equality looks at, this is what
makes values fit to be looked up by a hash (`equality_lawful`). -/

namespace ItemExpr.AttributeValue

/-! ### Parts that say where they end -/

/-- Whether the parts of `x`, in front of anything, determine `x` up to a relation and **where they
end**. -/
def Delimits {α : Type} (parts : α → List Part) (agrees : α → α → Prop) (x : α) : Prop :=
  ∀ y rest rest', parts x ++ rest = parts y ++ rest' → agrees x y ∧ rest = rest'

/-- So many things one after the other say where they end if each of them does. -/
theorem forall₂_of_flatMap_append_eq {α : Type} {parts : α → List Part} {agrees : α → α → Prop}
    {xs ys : List α} {rest rest' : List Part} (each : ∀ x ∈ xs, Delimits parts agrees x)
    (length : xs.length = ys.length)
    (equal : xs.flatMap parts ++ rest = ys.flatMap parts ++ rest') :
    List.Forall₂ agrees xs ys ∧ rest = rest' := by
  induction xs generalizing ys with
  | nil =>
    cases ys with
    | nil => exact ⟨.nil, equal⟩
    | cons => cases length
  | cons x xs ih =>
    cases ys with
    | nil => cases length
    | cons y ys =>
      rw [List.forall_mem_cons] at each
      rw [List.flatMap_cons, List.flatMap_cons, List.append_assoc, List.append_assoc] at equal
      obtain ⟨first, behind⟩ := each.1 y _ _ equal
      obtain ⟨others, same⟩ := ih each.2 (Nat.succ.inj length) behind
      exact ⟨.cons first others, same⟩

/-- Things that agree one by one have the same parts. -/
theorem flatMap_eq_of_forall₂ {α : Type} {parts : α → List Part} {agrees : α → α → Prop}
    {xs ys : List α} (each : ∀ x ∈ xs, ∀ y, agrees x y → parts x = parts y)
    (agree : List.Forall₂ agrees xs ys) : xs.flatMap parts = ys.flatMap parts := by
  induction agree with
  | nil => rfl
  | cons first _ ih =>
    rw [List.forall_mem_cons] at each
    rw [List.flatMap_cons, List.flatMap_cons, each.1 _ first, ih each.2]

theorem delimits_text (text : String) : Delimits (fun text => [Part.text text]) (· = ·) text := by
  intro other rest rest' equal
  simpa using equal

theorem delimits_bytes (bytes : Bytes) : Delimits bytesParts (· = ·) bytes := by
  intro other rest rest' equal
  obtain ⟨_, same, behind⟩ : _ ∧ bytes = other ∧ rest = rest' := by simpa [bytesParts] using equal
  exact ⟨same, behind⟩

/-- A set of texts says where it ends. -/
theorem delimits_textSet (members : List String) :
    Delimits textSetParts (fun a b => Members.distinct a = Members.distinct b) members := by
  intro others rest rest' equal
  simp only [textSetParts, List.cons_append, List.cons.injEq, Part.count.injEq,
    List.map_eq_flatMap] at equal
  obtain ⟨agree, behind⟩ :=
    forall₂_of_flatMap_append_eq (fun text _ => delimits_text text) equal.1 equal.2
  exact ⟨List.forall₂_eq_eq_eq ▸ agree, behind⟩

/-- A set of byte strings says where it ends. -/
theorem delimits_bytesSet (members : List Bytes) :
    Delimits bytesSetParts (fun a b => Members.distinct a = Members.distinct b) members := by
  intro others rest rest' equal
  simp only [bytesSetParts, List.cons_append, List.cons.injEq, Part.count.injEq] at equal
  obtain ⟨agree, behind⟩ :=
    forall₂_of_flatMap_append_eq (fun bytes _ => delimits_bytes bytes) equal.1 equal.2
  exact ⟨List.forall₂_eq_eq_eq ▸ agree, behind⟩

/-! ### Fingerprints -/

/-- The parts of an entry of a map. -/
def entryParts (entry : String × AttributeValue) : List Part :=
  .text entry.1 :: fingerprint entry.2

theorem fingerprintItems_eq_flatMap (items : List AttributeValue) :
    fingerprintItems items = items.flatMap fingerprint := by
  induction items with
  | nil => rfl
  | cons item items ih => rw [fingerprintItems, ih, List.flatMap_cons]

theorem fingerprintEntries_eq_flatMap (entries : List (String × AttributeValue)) :
    fingerprintEntries entries = entries.flatMap entryParts := by
  induction entries with
  | nil => rfl
  | cons entry entries ih => rw [fingerprintEntries, ih, List.flatMap_cons, entryParts]

/-- **A fingerprint says where it ends**, and determines its value up to equality. -/
theorem delimits_fingerprint (value : AttributeValue) :
    Delimits fingerprint (fun a b => same a b = true) value := by
  induction value using induction with
  | leaf value leaf =>
    intro other rest rest' equal
    show same value other = true ∧ rest = rest'
    cases value with
    | list | map => cases leaf
    -- Only values of one type begin alike.
    | string | number | boolean | null =>
      cases other <;> simp [fingerprint] at equal
      simpa [same] using equal
    | binary bytes =>
      cases other <;> simp [fingerprint] at equal
      rw [same, beq_iff_eq]
      exact delimits_bytes bytes _ rest rest' equal
    | stringSet members | numberSet members =>
      cases other <;> simp [fingerprint] at equal
      rw [same, beq_iff_eq]
      exact delimits_textSet members _ rest rest' equal
    | binarySet members =>
      cases other <;> simp [fingerprint] at equal
      rw [same, beq_iff_eq]
      exact delimits_bytesSet members _ rest rest' equal
  | list items ih =>
    intro other rest rest' equal
    show same _ other = true ∧ rest = rest'
    cases other <;> simp [fingerprint, fingerprintItems_eq_flatMap] at equal
    obtain ⟨length, behind⟩ := equal
    rw [same, sameItems_iff_forall₂]
    exact forall₂_of_flatMap_append_eq ih length behind
  | map entries ih =>
    intro other rest rest' equal
    show same _ other = true ∧ rest = rest'
    cases other <;> simp [fingerprint, fingerprintEntries_eq_flatMap] at equal
    obtain ⟨length, behind⟩ := equal
    rw [same, sameEntries_iff_forall₂]
    refine forall₂_of_flatMap_append_eq (fun entry mem => ?_) length behind
    -- The key ends itself, and the value behind it does by induction.
    intro entry' rest rest' equal
    simp only [entryParts, List.cons_append, List.cons.injEq, Part.text.injEq] at equal
    obtain ⟨agree, behind⟩ := ih entry.1 entry.2 mem entry'.2 rest rest' equal.2
    exact ⟨⟨equal.1, agree⟩, behind⟩

/-- Equal values have the same fingerprint. -/
theorem fingerprint_eq_of_same {a b : AttributeValue} (equal : same a b = true) :
    a.fingerprint = b.fingerprint := by
  induction a using induction generalizing b with
  | leaf a leaf =>
    cases a with
    | list | map => cases leaf
    | string | number | binary | boolean | null =>
      cases b <;> simp [same] at equal
      rw [equal]
    | stringSet members | numberSet members | binarySet members =>
      cases b <;> simp [same] at equal
      simp [fingerprint, textSetParts, bytesSetParts, equal]
  | list items ih =>
    cases b <;> simp [same, sameItems_iff_forall₂] at equal
    rw [fingerprint, fingerprint, fingerprintItems_eq_flatMap, fingerprintItems_eq_flatMap,
      equal.length_eq, flatMap_eq_of_forall₂ (fun item mem _ => ih item mem) equal]
  | map entries ih =>
    cases b <;> simp [same, sameEntries_iff_forall₂] at equal
    rw [fingerprint, fingerprint, fingerprintEntries_eq_flatMap, fingerprintEntries_eq_flatMap,
      equal.length_eq]
    refine congrArg (_ :: _ :: ·) (flatMap_eq_of_forall₂ (fun entry mem entry' agree => ?_) equal)
    rw [entryParts, entryParts, agree.1, ih entry.1 entry.2 mem agree.2]

/-- **Two values have the same fingerprint exactly if they are equal.** -/
theorem fingerprint_eq_iff {a b : AttributeValue} :
    a.fingerprint = b.fingerprint ↔ (a == b) = true := by
  constructor
  · intro equal
    exact (delimits_fingerprint a b [] [] (by rw [equal])).1
  · exact fingerprint_eq_of_same

/-- **Equality of values is fit for looking them up.** It is an equivalence; it holds exactly if the
contents of two values are equal, and exactly if their fingerprints are the same. In whatever order
the entries of maps are met, arranging them gives values that are equal, and have the same
fingerprint, exactly if the contents are. -/
theorem equality_lawful (a b c : AttributeValue) :
    ((a == a) = true ∧ ((a == b) = true → (b == a) = true) ∧
      ((a == b) = true → (b == c) = true → (a == c) = true)) ∧
    ((a == b) = true ↔ a.fingerprint = b.fingerprint) ∧
    (a.Ordered → b.Ordered → ((a == b) = true ↔ Equal a b)) ∧
    (a.Keyed → b.Keyed → ((a.arranged == b.arranged) = true ↔ Equal a b) ∧
      (a.arranged.fingerprint = b.arranged.fingerprint ↔ Equal a b)) := by
  refine ⟨⟨BEq.rfl, BEq.symm, BEq.trans⟩, fingerprint_eq_iff.symm, ?_, ?_⟩
  · intro ordered ordered'
    have arranged := same_arranged_iff_equal ordered.keyed ordered'.keyed
    rw [ordered.arranged_eq, ordered'.arranged_eq] at arranged
    exact arranged
  · intro keyed keyed'
    have arranged := same_arranged_iff_equal keyed keyed'
    exact ⟨arranged, fingerprint_eq_iff.trans arranged⟩

/-- Values that are written differently at every depth: in the first two the entries of the maps
come in another order, and in all of them the members of the sets do, one of them more than
once. -/
theorem equality_lawful_nested :
    ∃ a b c d : AttributeValue,
      a = .list [.map [("tags", .stringSet ["x", "y", "x"]),
        ("at", .map [("b", .null true), ("a", .numberSet ["2", "1"])])]] ∧
      b = .list [.map [("at", .map [("a", .numberSet ["1", "2", "2"]), ("b", .null true)]),
        ("tags", .stringSet ["y", "x"])]] ∧
      c = .map [("a", .list [.binarySet [[2], [1, 0], [2]]]), ("b", .boolean false)] ∧
      d = .map [("a", .list [.binarySet [[1, 0], [2]]]), ("b", .boolean false)] ∧
      (a.Keyed ∧ b.Keyed ∧ Equal a b ∧ a.arranged.fingerprint = b.arranged.fingerprint) ∧
      (c.Ordered ∧ d.Ordered ∧ Equal c d ∧ c.fingerprint = d.fingerprint) := by
  refine ⟨_, _, _, _, rfl, rfl, rfl, rfl, ?arranged, ?inOrder⟩
  case arranged =>
    have keyed := (equality_lawful
      (.list [.map [("tags", .stringSet ["x", "y", "x"]),
        ("at", .map [("b", .null true), ("a", .numberSet ["2", "1"])])]])
      (.list [.map [("at", .map [("a", .numberSet ["1", "2", "2"]), ("b", .null true)]),
        ("tags", .stringSet ["y", "x"])]]) (.null true)).2.2.2
      (by simp [Keyed, KeyedItems, KeyedEntries, Entries.keys])
      (by simp [Keyed, KeyedItems, KeyedEntries, Entries.keys])
    have equal := keyed.1.1 (by decide +kernel)
    refine ⟨?_, ?_, equal, keyed.2.2 equal⟩ <;>
      simp [Keyed, KeyedItems, KeyedEntries, Entries.keys]
  case inOrder =>
    have lawful := equality_lawful
      (.map [("a", .list [.binarySet [[2], [1, 0], [2]]]), ("b", .boolean false)])
      (.map [("a", .list [.binarySet [[1, 0], [2]]]), ("b", .boolean false)]) (.null true)
    have ordered : Ordered (.map [("a", .list [.binarySet [[2], [1, 0], [2]]]),
        ("b", .boolean false)]) := by
      simp only [Ordered, OrderedItems, OrderedEntries, Entries.Sorted, and_true]
      decide
    have ordered' : Ordered (.map [("a", .list [.binarySet [[1, 0], [2]]]),
        ("b", .boolean false)]) := by
      simp only [Ordered, OrderedItems, OrderedEntries, Entries.Sorted, and_true]
      decide
    have equal : AttributeValue.same
        (.map [("a", .list [.binarySet [[2], [1, 0], [2]]]), ("b", .boolean false)])
        (.map [("a", .list [.binarySet [[1, 0], [2]]]), ("b", .boolean false)]) = true := by
      decide +kernel
    exact ⟨ordered, ordered', (lawful.2.2.1 ordered ordered').1 equal, lawful.2.1.1 equal⟩

end ItemExpr.AttributeValue
