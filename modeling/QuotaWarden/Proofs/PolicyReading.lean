import QuotaWarden.PolicyCache
import QuotaWarden.Proofs.CacheChanges

/-! # Reading policies

What an object reads as does not depend on where it is read: `ApiObject.policy?` is its policy, and
reading it on a site gives that and only adds to the journal. The policy of a named object has the
namespace and the name that the metadata of the object give. -/

namespace QuotaWarden

/-- The policy that an object reads as. -/
def ApiObject.policy? : ApiObject → Except Fault Policy
  | .untyped v => (Policy.ofJson v []).1
  | .untypedList fields _ => (Policy.ofJson (.obj fields) []).1
  | o => .error (.noField o.kindName "get")

variable {σ τ : Type}

/-- Only the journal of a site was written. -/
def Site.Journaled (s t : Site σ τ) : Prop := ∃ notes, t = { s with notes }

theorem Site.Journaled.refl (s : Site σ τ) : s.Journaled s := ⟨s.notes, rfl⟩

theorem Site.Journaled.trans {s t u : Site σ τ} (h : s.Journaled t) (h' : t.Journaled u) :
    s.Journaled u := by
  obtain ⟨notes, rfl⟩ := h
  obtain ⟨notes', rfl⟩ := h'
  exact ⟨notes', rfl⟩

theorem forEach_say (level : LogLevel) (warnings : List String) (s : Site σ τ) :
    ∃ t, Act.forEach warnings (Site.say level) s = (.ok (), t) ∧ s.Journaled t := by
  induction warnings generalizing s with
  | nil => exact ⟨s, rfl, .refl s⟩
  | cons w r ih =>
      obtain ⟨t, e, journaled⟩ := ih (s.note (.log ⟨level, w⟩))
      exact ⟨t, e, Site.Journaled.trans ⟨_, rfl⟩ journaled⟩

theorem readLogged_spec (v : Json) (s : Site σ τ) :
    (readLogged v s).1 = (Policy.ofJson v []).1 ∧ s.Journaled (readLogged v s).2 := by
  obtain ⟨t, ht, journaled⟩ := forEach_say .warning (Policy.ofJson v []).2 s
  have e : readLogged v s = (Act.forEach (Policy.ofJson v []).2 (Site.say .warning) >>= fun _ =>
      Act.lift (Policy.ofJson v []).1) s := rfl
  rw [e, Act.bind_of_ok ht, Act.lift_apply]
  exact ⟨rfl, journaled⟩

theorem readWithWarnings_spec (o : ApiObject) (s : Site σ τ) :
    (readWithWarnings o s).1 = o.policy? ∧ s.Journaled (readWithWarnings o s).2 := by
  cases o with
  | untyped v => exact readLogged_spec v s
  | untypedList fields items => exact readLogged_spec _ s
  | pod p => exact ⟨rfl, .refl s⟩
  | ns name => exact ⟨rfl, .refl s⟩
  | state code => exact ⟨rfl, .refl s⟩
  | bare => exact ⟨rfl, .refl s⟩
  | list items version => exact ⟨rfl, .refl s⟩

theorem readWithWarnings_ok {o : ApiObject} {p : Policy} (h : o.policy? = .ok p) (s : Site σ τ) :
    ∃ t, readWithWarnings o s = (.ok p, t) ∧ s.Journaled t := by
  obtain ⟨read, journaled⟩ := readWithWarnings_spec o s
  exact ⟨_, Prod.ext (read.trans h) rfl, journaled⟩

/-- `governingPolicy?` only writes to the journal. -/
theorem governingPolicy?_journaled (c : WatchCache) (ns : Json) (s : Site σ τ) :
    s.Journaled (governingPolicy? c ns s).2 := by
  unfold governingPolicy?
  rw [Act.bind_apply, Act.lift_apply]
  cases c.first? ns with
  | error f => exact .refl s
  | ok found =>
      cases found with
      | none => exact .refl s
      | some o =>
          dsimp only
          rw [Act.map_apply]
          exact (readWithWarnings_spec o s).2

theorem readAllWithWarnings_ok {objects : List ApiObject}
    (h : ∀ o ∈ objects, ∃ p, o.policy? = .ok p) (s : Site σ τ) :
    ∃ ps t, readAllWithWarnings objects s = (.ok ps, t) ∧ s.Journaled t ∧
      ps.map Except.ok = objects.map (·.policy?) := by
  induction objects generalizing s with
  | nil => exact ⟨[], s, rfl, .refl s, rfl⟩
  | cons o r ih =>
      rw [List.forall_mem_cons] at h
      obtain ⟨p, hp⟩ := h.1
      obtain ⟨t, first, journaled⟩ := readWithWarnings_ok hp s
      obtain ⟨ps, t', rest, journaled', same⟩ := ih h.2 t
      refine ⟨p :: ps, t', ?_, journaled.trans journaled', ?_⟩
      · rw [readAllWithWarnings, Act.bind_of_ok first, Act.bind_of_ok rest]
        rfl
      · rw [List.map_cons, List.map_cons, same, hp]

theorem readAllWithWarnings_cons_ok {o : ApiObject} {r : List ApiObject} {s t : Site σ τ}
    {ps : List Policy} (h : readAllWithWarnings (o :: r) s = (.ok ps, t)) :
    ∃ p rest, ps = p :: rest ∧ o.policy? = .ok p := by
  unfold readAllWithWarnings at h
  obtain ⟨p, s', hp, h⟩ := Act.bind_eq_ok.mp h
  obtain ⟨rest, s'', _, h⟩ := Act.bind_eq_ok.mp h
  simp only [Act.pure_apply, Prod.mk.injEq, Except.ok.injEq] at h
  refine ⟨p, rest, h.1.symm, ?_⟩
  rw [← (readWithWarnings_spec o s).1, hp]

/-! ### The namespace and the name of a policy -/

theorem ofJson_texts {v : Json} {p : Policy} {warnings rest : List String}
    (h : Policy.ofJson v warnings = (.ok p, rest)) :
    ∃ fields metadata, v = .obj fields ∧
      mapping ((field? "metadata" fields).getD (.obj [])) = .ok metadata ∧
      p.ns = (field? "namespace" metadata).getD (.str "default") ∧
      p.name = (field? "name" metadata).getD (.str "") := by
  unfold Policy.ofJson at h
  obtain ⟨fields, _, hf, h⟩ := Act.bind_eq_ok.mp h
  obtain ⟨metadata, _, hm, h⟩ := Act.bind_eq_ok.mp h
  obtain ⟨spec, _, _, h⟩ := Act.bind_eq_ok.mp h
  obtain ⟨maxPods, _, _, h⟩ := Act.bind_eq_ok.mp h
  obtain ⟨maxCpu, _, _, h⟩ := Act.bind_eq_ok.mp h
  obtain ⟨maxMemory, _, _, h⟩ := Act.bind_eq_ok.mp h
  simp only [Act.pure_apply, Prod.mk.injEq, Except.ok.injEq] at h
  obtain ⟨rfl, _⟩ := h
  simp only [Act.lift_apply, Prod.mk.injEq] at hf hm
  refine ⟨fields, metadata, ?_, hm.1, rfl, rfl⟩
  cases v <;> simp_all [mapping]

theorem field?_of_given {name s : String} {fields : List (String × Json)}
    (h : ApiObject.given name fields = .str s) (hs : s ≠ "") :
    field? name fields = some (.str s) := by
  unfold ApiObject.given Json.orElse at h
  split at h
  · cases hf : field? name fields with
    | none => simp [hf, Json.ofOption] at h
    | some v => simpa [hf, Json.ofOption] using h
  · exact absurd (Json.str.inj h).symm hs

/-- A text in the metadata that identify an object stands in the fields that a policy is read from.
-/
theorem field?_of_untypedMetadata {fields inner metadata : List (String × Json)}
    {name s : String} (hu : ApiObject.untypedMetadata fields = .ok inner)
    (hat : ApiObject.given name inner = .str s) (hs : s ≠ "")
    (hm : mapping ((field? "metadata" fields).getD (.obj [])) = .ok metadata) :
    field? name metadata = some (.str s) := by
  have hin := field?_of_given hat hs
  cases hf : field? "metadata" fields with
  | none =>
      simp only [ApiObject.untypedMetadata, hf, Json.ofOption, Json.orElse, Json.truthy,
        Bool.false_eq_true, if_false, Except.ok.injEq] at hu
      rw [← hu] at hin
      simp [Dictionary.get?] at hin
  | some v =>
      cases v with
      | obj given =>
          simp only [hf, Option.getD_some, mapping, Except.ok.injEq] at hm
          subst hm
          cases given with
          | nil =>
              simp only [ApiObject.untypedMetadata, hf, Json.ofOption, Json.orElse, Json.truthy,
                List.isEmpty_nil, Bool.not_true, Bool.false_eq_true, if_false,
                Except.ok.injEq] at hu
              rwa [← hu] at hin
          | cons e r =>
              simp only [ApiObject.untypedMetadata, hf, Json.ofOption, Json.orElse, Json.truthy,
                List.isEmpty_cons, Bool.not_false, if_true, Except.ok.injEq] at hu
              rwa [← hu] at hin
      | _ => simp [hf, mapping] at hm

/-- `p.ns` and `p.name` are those of the metadata, where these are texts. -/
theorem texts_of_policy? {o : ApiObject} {m : ObjectMeta} {p : Policy} (hv : o.metadata = .ok m)
    (hp : o.policy? = .ok p) :
    (∀ ns, m.ns = .str ns → ns ≠ "" → p.ns = .str ns) ∧
      ∀ name, m.name = .str name → name ≠ "" → p.name = .str name := by
  have read : ∀ fields : List (String × Json), (Policy.ofJson (.obj fields) []).1 = .ok p →
      ApiObject.identify fields = .ok m →
      (∀ ns, m.ns = .str ns → ns ≠ "" → p.ns = .str ns) ∧
        ∀ name, m.name = .str name → name ≠ "" → p.name = .str name := by
    intro fields hp hi
    obtain ⟨fields', metadata, hf, hm, hns, hname⟩ := ofJson_texts (Prod.ext hp rfl)
    obtain rfl := Json.obj.inj hf
    unfold ApiObject.identify at hi
    cases hu : ApiObject.untypedMetadata fields with
    | error f => simp [hu, bind, Except.bind] at hi
    | ok inner =>
        simp only [hu, bind, Except.bind, pure, Except.pure, Except.ok.injEq] at hi
        rw [← hi, hns, hname]
        refine ⟨fun ns hat hs => ?_, fun name hat hs => ?_⟩
        · rw [field?_of_untypedMetadata hu hat hs hm, Option.getD_some]
        · rw [field?_of_untypedMetadata hu hat hs hm, Option.getD_some]
  cases o with
  | untypedList fields items => exact read fields hp hv
  | untyped v =>
      cases v with
      | obj fields => exact read fields hp hv
      | _ =>
          obtain ⟨fields, _, hf, _⟩ := ofJson_texts (Prod.ext hp rfl)
          exact absurd hf (by simp)
  | _ => simp [ApiObject.policy?] at hp

theorem ns_of_policy? {o : ApiObject} {ns : String} {m : ObjectMeta} {p : Policy}
    (hv : o.metadata = .ok m) (hat : m.ns = .str ns) (hns : ns ≠ "") (hp : o.policy? = .ok p) :
    p.ns = .str ns := (texts_of_policy? hv hp).1 ns hat hns

end QuotaWarden
