import QuotaWarden.Proofs.Sorting
import QuotaWarden.WatchCache.Index
import Mathlib.Data.Prod.Lex
import Mathlib.Data.String.Basic

/-! # Coherence of the index

The index holds every object twice: in one dictionary by namespace and name, and in a dictionary by
name for its namespace. `Index.Coherent` says that both give the same object for a key; storing and
removing keep it (`Index.store_coherent`, `Index.remove_coherent`).

`Index.Textual` is the shape of an index of objects whose namespaces and names are texts: every
object stands under the key that its metadata give. There the reads are in strict order, and the
first object of a namespace is the first one that is read of it (`Index.Textual.all_sorted`,
`Index.Textual.inNamespace_sorted`). -/

namespace QuotaWarden

/-! ### Text keys -/

namespace Key

theorem eq_of_beq_text {k : Key} {s : String} (h : (k == text s) = true) : k = text s := by
  have hp := beq_iff.mp h
  cases k with
  | text t => simpa [plain] using hp
  | null => simp [plain] at hp
  | bool b => simp [plain] at hp
  | int n => simp [plain] at hp
  | fraction bits =>
      simp only [plain] at hp
      split at hp <;> simp at hp

@[simp] theorem beq_text_iff {k : Key} {s : String} : (k == text s) = true ↔ k = text s :=
  ⟨eq_of_beq_text, fun h => by rw [h]; exact BEq.refl _⟩

@[simp] theorem text_beq_iff {k : Key} {s : String} : (text s == k) = true ↔ k = text s := by
  rw [BEq.comm, beq_text_iff]

end Key

/-- The text that a key is; other keys are not told apart. -/
def Key.asText : Key → String
  | text s => s
  | _ => ""

@[simp] theorem Key.asText_text (s : String) : (text s).asText = s := rfl

/-- The texts of a key, ordered by namespace and then by name. -/
def ObjectKey.asTexts (k : ObjectKey) : String ×ₗ String := toLex (k.ns.asText, k.name.asText)

theorem ObjectKey.before_texts (ns name ns' name' : String) :
    before ⟨.text ns, .text name⟩ ⟨.text ns', .text name'⟩ = .ok
      (decide (asTexts ⟨.text ns, .text name⟩ < asTexts ⟨.text ns', .text name'⟩)) := by
  by_cases h : ns = ns'
  · simp [before, asTexts, Prod.Lex.lt_iff, h]
  · simp [before, asTexts, Prod.Lex.lt_iff, h]

/-! ### The two forms -/

namespace Index

variable {i : Index}

theorem namespaceOf_store (ns : Key) (k : ObjectKey) (o : ApiObject) (i : Index) :
    (i.store k o).namespaceOf ns =
      if ns == k.ns then Dictionary.set k.name o (i.namespaceOf k.ns) else i.namespaceOf ns := by
  unfold namespaceOf store
  rw [Dictionary.get?_set]
  split <;> rfl

theorem namespaceOf_remove (ns : Key) (k : ObjectKey) (i : Index) :
    (i.remove k).namespaceOf ns =
      if ns == k.ns then Dictionary.erase k.name (i.namespaceOf k.ns) else i.namespaceOf ns := by
  unfold namespaceOf remove
  cases hb : Dictionary.get? k.ns i.byNamespace with
  | none =>
      by_cases h : (ns == k.ns) = true
      · simp [h, Dictionary.get?_congr h, hb, Dictionary.erase]
      · simp [h]
  | some inner =>
      simp only [Option.getD_some]
      cases he : Dictionary.erase k.name inner with
      | nil =>
          simp only [Dictionary.get?_erase]
          split <;> simp
      | cons e r =>
          simp only [Dictionary.get?_set]
          split <;> simp

theorem get?_congr_ns {j k : Key} (h : (j == k) = true) (name : Key) (i : Index) :
    i.get? ⟨j, name⟩ = i.get? ⟨k, name⟩ := by
  unfold get?
  exact Dictionary.get?_congr (ObjectKey.beq_iff.mpr ⟨h, BEq.refl name⟩) _

/-- Both forms hold the same object under a key. -/
def Coherent (i : Index) : Prop :=
  ∀ ns name, Dictionary.get? name (i.namespaceOf ns) = i.get? ⟨ns, name⟩

theorem empty_coherent : empty.Coherent := fun _ _ => rfl

theorem store_coherent (h : i.Coherent) (k : ObjectKey) (o : ApiObject) :
    (i.store k o).Coherent := by
  intro ns name
  have hk : (i.store k o).get? ⟨ns, name⟩ =
      if (ns == k.ns && name == k.name) = true then some o else i.get? ⟨ns, name⟩ :=
    Dictionary.get?_set _ _ _ _
  rw [namespaceOf_store, hk]
  by_cases hns : (ns == k.ns) = true
  · have hi := get?_congr_ns hns name i
    rw [if_pos hns, Dictionary.get?_set, h k.ns name, hns, hi, Bool.true_and]
  · rw [if_neg hns, h ns name, if_neg (by simp [hns])]

theorem remove_coherent (h : i.Coherent) (k : ObjectKey) : (i.remove k).Coherent := by
  intro ns name
  have hk : (i.remove k).get? ⟨ns, name⟩ =
      if (ns == k.ns && name == k.name) = true then none else i.get? ⟨ns, name⟩ :=
    Dictionary.get?_erase _ _ _
  rw [namespaceOf_remove, hk]
  by_cases hns : (ns == k.ns) = true
  · have hi := get?_congr_ns hns name i
    rw [if_pos hns, Dictionary.get?_erase, h k.ns name, hns, hi, Bool.true_and]
  · rw [if_neg hns, h ns name, if_neg (by simp [hns])]

/-- No key stands twice in either form. -/
structure Unrepeated (i : Index) : Prop where
  objects : Dictionary.Distinct i.objects
  names : ∀ ns, Dictionary.Distinct (i.namespaceOf ns)

theorem empty_unrepeated : empty.Unrepeated :=
  ⟨List.Pairwise.nil, fun _ => List.Pairwise.nil⟩

theorem store_unrepeated (h : i.Unrepeated) (k : ObjectKey) (o : ApiObject) :
    (i.store k o).Unrepeated := by
  refine ⟨Dictionary.distinct_set h.objects k o, ?_⟩
  intro ns
  rw [namespaceOf_store]
  split
  · exact Dictionary.distinct_set (h.names k.ns) k.name o
  · exact h.names ns

theorem remove_unrepeated (h : i.Unrepeated) (k : ObjectKey) : (i.remove k).Unrepeated := by
  refine ⟨Dictionary.distinct_erase h.objects k, ?_⟩
  intro ns
  rw [namespaceOf_remove]
  split
  · exact Dictionary.distinct_erase (h.names k.ns) k.name
  · exact h.names ns

/-! ### Objects with text keys -/

end Index

/-- The metadata of an object name a namespace and a name, both texts. -/
def ApiObject.IsAt (ns name : String) (o : ApiObject) : Prop :=
  ∃ version, o.metadata = .ok ⟨.str ns, .str name, version⟩

theorem ApiObject.IsAt.unique {o : ApiObject} {ns name ns' name' : String} (h : o.IsAt ns name)
    (h' : o.IsAt ns' name') : ns = ns' ∧ name = name' := by
  obtain ⟨v, hv⟩ := h
  obtain ⟨v', hv'⟩ := h'
  rw [hv] at hv'
  simp only [Except.ok.injEq, ObjectMeta.mk.injEq, Json.str.injEq] at hv'
  exact ⟨hv'.1, hv'.2.1⟩

theorem ApiObject.IsAt.ofMeta {o : ApiObject} {ns name : String} (h : o.IsAt ns name) :
    ∃ m, o.metadata = .ok m ∧ ObjectKey.ofMeta m = .ok ⟨.text ns, .text name⟩ := by
  obtain ⟨v, hv⟩ := h
  exact ⟨_, hv, rfl⟩

/-- The key that the metadata of an object give. -/
def ApiObject.key? (o : ApiObject) : Option ObjectKey :=
  match o.metadata with
  | .ok m => (ObjectKey.ofMeta m).toOption
  | .error _ => none

theorem ApiObject.IsAt.key? {o : ApiObject} {ns name : String} (h : o.IsAt ns name) :
    o.key? = some ⟨.text ns, .text name⟩ := by
  obtain ⟨m, hm, hk⟩ := h.ofMeta
  simp [ApiObject.key?, hm, hk, Except.toOption]

/-- The texts of an object, ordered by namespace and then by name. -/
def ApiObject.texts (o : ApiObject) : String ×ₗ String :=
  (o.key?.map ObjectKey.asTexts).getD (toLex ("", ""))

theorem ApiObject.IsAt.texts {o : ApiObject} {ns name : String} (h : o.IsAt ns name) :
    o.texts = toLex (ns, name) := by
  rw [ApiObject.texts, h.key?]
  rfl

namespace Index

variable {P : ApiObject → Prop} {i : Index}

/-- An index of objects from `P`, each under the texts that its metadata give. -/
structure Textual (P : ApiObject → Prop) (i : Index) : Prop where
  coherent : i.Coherent
  unrepeated : i.Unrepeated
  placed : ∀ k o, (k, o) ∈ i.objects → P o ∧ ∃ ns name, k = ⟨.text ns, .text name⟩ ∧ o.IsAt ns name

theorem empty_textual : empty.Textual P :=
  ⟨empty_coherent, empty_unrepeated, by simp [empty]⟩

theorem store_textual (h : i.Textual P) {ns name : String} {o : ApiObject} (hp : P o)
    (ho : o.IsAt ns name) : (i.store ⟨.text ns, .text name⟩ o).Textual P := by
  refine ⟨store_coherent h.coherent _ _, store_unrepeated h.unrepeated _ _, ?_⟩
  intro k o' hk
  rcases Dictionary.mem_set hk with hk | hk | ⟨j, hj, hk⟩
  · exact h.placed k o' hk
  · obtain ⟨rfl, rfl⟩ := Prod.mk.inj hk
    exact ⟨hp, ns, name, rfl, ho⟩
  · obtain ⟨rfl, rfl⟩ := Prod.mk.inj hk
    obtain ⟨hn, hm⟩ := ObjectKey.beq_iff.mp hj
    refine ⟨hp, ns, name, ?_, ho⟩
    cases k
    simp_all

theorem remove_textual (h : i.Textual P) (k : ObjectKey) : (i.remove k).Textual P :=
  ⟨remove_coherent h.coherent k, remove_unrepeated h.unrepeated k,
    fun j o hj => h.placed j o (Dictionary.mem_of_mem_erase hj)⟩

theorem Textual.get?_placed (h : i.Textual P) {k : ObjectKey} {o : ApiObject}
    (hk : i.get? k = some o) :
    P o ∧ ∃ ns name, k = ⟨.text ns, .text name⟩ ∧ o.IsAt ns name := by
  obtain ⟨j, hj, hm⟩ := Dictionary.mem_of_get? hk
  obtain ⟨hp, ns, name, rfl, ho⟩ := h.placed j o hm
  refine ⟨hp, ns, name, ?_, ho⟩
  obtain ⟨hn, hm⟩ := ObjectKey.beq_iff.mp hj
  cases k
  simp_all

theorem Textual.isAt_of_get? (h : i.Textual P) {ns name : String} {o : ApiObject}
    (ho : i.get? ⟨.text ns, .text name⟩ = some o) : o.IsAt ns name ∧ P o := by
  obtain ⟨hp, ns', name', hk, hat⟩ := h.get?_placed ho
  obtain ⟨hns, hname⟩ := ObjectKey.mk.inj hk
  rw [Key.text.inj hns, Key.text.inj hname]
  exact ⟨hat, hp⟩

/-! ### Reads in order -/

theorem Textual.get?_of_mem_names (h : i.Textual P) {ns : Key} {e : Key × ApiObject}
    (he : e ∈ i.namespaceOf ns) : i.get? ⟨ns, e.1⟩ = some e.2 := by
  rw [← h.coherent ns e.1]
  exact Dictionary.get?_of_mem (h.unrepeated.names ns) he

theorem Textual.names_text (h : i.Textual P) {ns : Key} {e : Key × ApiObject}
    (he : e ∈ i.namespaceOf ns) :
    ∃ s name, ns = .text s ∧ e.1 = .text name ∧ e.2.IsAt s name := by
  obtain ⟨_, s, name, hk, hat⟩ := h.get?_placed (h.get?_of_mem_names he)
  obtain ⟨hs, hname⟩ := ObjectKey.mk.inj hk
  exact ⟨s, name, hs, hname, hat⟩

theorem Textual.all_sorted (h : i.Textual P) :
    ∃ objects, i.all = .ok objects ∧ objects.Pairwise (·.texts < ·.texts) ∧
      ∀ o, o ∈ objects ↔ ∃ k, i.get? k = some o := by
  have texts : ∀ e ∈ i.objects, ∃ ns name, e.1 = ⟨.text ns, .text name⟩ ∧ e.2.IsAt ns name :=
    fun e he => (h.placed e.1 e.2 he).2
  obtain ⟨ys, e, perm, strict, _⟩ := sortOrdered_strict (fun j k => j.1.before k.1)
    (fun e => e.1.asTexts) i.objects (by
      intro x hx y hy
      obtain ⟨ns, name, hk, _⟩ := texts x hx
      obtain ⟨ns', name', hk', _⟩ := texts y hy
      rw [hk, hk']
      exact ObjectKey.before_texts _ _ _ _) (by
      refine h.unrepeated.objects.imp_of_mem ?_
      intro x y hx hy hne heq
      obtain ⟨ns, name, hk, _⟩ := texts x hx
      obtain ⟨ns', name', hk', _⟩ := texts y hy
      rw [hk, hk'] at hne heq
      obtain ⟨rfl, rfl⟩ := Prod.mk.inj (toLex.injective heq)
      simp at hne)
  refine ⟨ys.map (·.2), ?_, ?_, ?_⟩
  · unfold all
    rw [e]
    rfl
  · refine List.pairwise_map.mpr (strict.imp_of_mem ?_)
    intro x y hx hy hlt
    obtain ⟨ns, name, hk, hat⟩ := texts x (perm.mem_iff.mp hx)
    obtain ⟨ns', name', hk', hat'⟩ := texts y (perm.mem_iff.mp hy)
    rw [hk, hk'] at hlt
    rw [hat.texts, hat'.texts]
    exact hlt
  · intro o
    constructor
    · intro ho
      obtain ⟨x, hx, rfl⟩ := List.mem_map.mp ho
      exact ⟨x.1, Dictionary.get?_of_mem h.unrepeated.objects (perm.mem_iff.mp hx)⟩
    · rintro ⟨k, hk⟩
      obtain ⟨j, _, hm⟩ := Dictionary.mem_of_get? hk
      exact List.mem_map.mpr ⟨(j, o), perm.mem_iff.mpr hm, rfl⟩

/-- `inNamespace` is in strict order, and `first?` is its head. -/
theorem Textual.inNamespace_sorted (h : i.Textual P) (ns : String) :
    ∃ objects, i.inNamespace (.text ns) = .ok objects ∧ i.first? (.text ns) = .ok objects.head? ∧
      objects.Pairwise (·.texts < ·.texts) ∧
      ∀ o, o ∈ objects ↔ ∃ name, i.get? ⟨.text ns, .text name⟩ = some o := by
  have texts : ∀ e ∈ i.namespaceOf (.text ns), ∃ name, e.1 = .text name ∧ e.2.IsAt ns name := by
    intro e he
    obtain ⟨_, name, ⟨⟩, hname, hat⟩ := h.names_text he
    exact ⟨name, hname, hat⟩
  obtain ⟨ys, e, perm, strict, least⟩ := sortOrdered_strict (fun j k => j.1.before k.1)
    (fun e => e.1.asText) (i.namespaceOf (.text ns)) (by
      intro x hx y hy
      obtain ⟨name, hname, _⟩ := texts x hx
      obtain ⟨name', hname', _⟩ := texts y hy
      simp [hname, hname']) (by
      refine (h.unrepeated.names _).imp_of_mem ?_
      intro x y hx hy hne heq
      obtain ⟨name, hname, _⟩ := texts x hx
      obtain ⟨name', hname', _⟩ := texts y hy
      simp_all)
  refine ⟨ys.map (·.2), ?_, ?_, ?_, ?_⟩
  · unfold inNamespace
    rw [e]
    rfl
  · unfold first?
    rw [least, List.head?_map]
    rfl
  · refine List.pairwise_map.mpr (strict.imp_of_mem ?_)
    intro x y hx hy hlt
    obtain ⟨name, hname, hat⟩ := texts x (perm.mem_iff.mp hx)
    obtain ⟨name', hname', hat'⟩ := texts y (perm.mem_iff.mp hy)
    rw [hname, hname'] at hlt
    rw [hat.texts, hat'.texts]
    exact Prod.Lex.toLex_lt_toLex.mpr (.inr ⟨rfl, hlt⟩)
  · intro o
    constructor
    · intro ho
      obtain ⟨x, hx, rfl⟩ := List.mem_map.mp ho
      have hmem := perm.mem_iff.mp hx
      obtain ⟨name, hname, _⟩ := texts x hmem
      exact ⟨name, hname ▸ h.get?_of_mem_names hmem⟩
    · rintro ⟨name, ho⟩
      rw [← h.coherent] at ho
      obtain ⟨j, _, hm⟩ := Dictionary.mem_of_get? ho
      exact List.mem_map.mpr ⟨(j, o), perm.mem_iff.mpr hm, rfl⟩

theorem Textual.inNamespace_of_not_text (h : i.Textual P) {k : Key} (hk : ∀ s, k ≠ .text s) :
    i.inNamespace k = .ok [] := by
  have hn : i.namespaceOf k = [] := by
    refine List.eq_nil_iff_forall_not_mem.mpr fun e he => ?_
    obtain ⟨s, _, hs, _⟩ := h.names_text he
    exact hk s hs
  unfold inNamespace
  rw [hn]
  rfl

/-! ### The first object -/

/-- An object has the first name of its namespace. -/
def IsFirst (ns name : String) (o : ApiObject) (i : Index) : Prop :=
  i.get? ⟨.text ns, .text name⟩ = some o ∧
    ∀ other, i.get? ⟨.text ns, .text other⟩ ≠ none → name ≤ other

theorem Textual.isFirst (h : i.Textual P) {ns name : String} {o : ApiObject} {r : List ApiObject}
    (ho : i.get? ⟨.text ns, .text name⟩ = some o) (sorted : (o :: r).Pairwise (·.texts < ·.texts))
    (hmem : ∀ other o', i.get? ⟨.text ns, .text other⟩ = some o' → o' ∈ o :: r) :
    i.IsFirst ns name o := by
  refine ⟨ho, fun other hother => ?_⟩
  obtain ⟨o', ho'⟩ := Option.ne_none_iff_exists'.mp hother
  have hat := (h.isAt_of_get? ho).1
  have hat' := (h.isAt_of_get? ho').1
  rcases List.mem_cons.mp (hmem other o' ho') with rfl | hr
  · exact (hat.unique hat').2.le
  · have hlt := (List.pairwise_cons.mp sorted).1 o' hr
    rw [hat.texts, hat'.texts, Prod.Lex.toLex_lt_toLex] at hlt
    rcases hlt with hlt | ⟨_, hlt⟩
    · exact absurd hlt (lt_irrefl ns)
    · exact hlt.le

/-- `inNamespace` is empty, or begins with the object that `IsFirst`. -/
theorem Textual.inNamespace_cases (h : i.Textual P) (ns : String) :
    i.inNamespace (.text ns) = .ok [] ∧ (∀ name, i.get? ⟨.text ns, .text name⟩ = none) ∨
    ∃ o r name, i.inNamespace (.text ns) = .ok (o :: r) ∧ i.IsFirst ns name o := by
  obtain ⟨objects, hread, _, sorted, hmem⟩ := h.inNamespace_sorted ns
  cases objects with
  | nil =>
      refine Or.inl ⟨hread, fun name => Option.eq_none_iff_forall_ne_some.mpr fun o ho => ?_⟩
      exact List.not_mem_nil ((hmem o).mpr ⟨name, ho⟩)
  | cons o r =>
      obtain ⟨name, ho⟩ := (hmem o).mp List.mem_cons_self
      exact Or.inr ⟨o, r, name, hread,
        h.isFirst ho sorted fun other o' ho' => (hmem o').mpr ⟨other, ho'⟩⟩

/-- `all` is empty, or begins with an object that `IsFirst` in its namespace. -/
theorem Textual.all_cases (h : i.Textual P) :
    i.all = .ok [] ∨ ∃ o r ns name, i.all = .ok (o :: r) ∧ i.IsFirst ns name o := by
  obtain ⟨objects, hread, sorted, hmem⟩ := h.all_sorted
  cases objects with
  | nil => exact Or.inl hread
  | cons o r =>
      obtain ⟨k, ho⟩ := (hmem o).mp List.mem_cons_self
      obtain ⟨_, ns, name, rfl, _⟩ := h.get?_placed ho
      exact Or.inr ⟨o, r, ns, name, hread,
        h.isFirst ho sorted fun other o' ho' => (hmem o').mpr ⟨_, ho'⟩⟩

end Index

end QuotaWarden
