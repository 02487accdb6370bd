import FormatStyle.Proofs.Stacking

/-! # Mappings that are read alike

Two mappings are read alike if the same language and the same base are found in them, they make the
same edits, and their keys are known. Then configurations that hold the one in place of the other
are read alike, too (`Configuration.ofMappings_carries`), and so are texts that spell them
(`Configuration.read_carries`).
-/

namespace FormatStyle

open StyleRecord
open Yaml (Mapping)

namespace Outcome

variable {ε α β γ : Type} {x y z : Except ε α}

/-- **What one computation gives, the other one gives.** Nothing is said about errors. -/
def Carries (x y : Except ε α) : Prop := ∀ a, x = .ok a → y = .ok a

namespace Carries

theorem refl (x : Except ε α) : Carries x x := fun _ => id

theorem of_eq (same : x = y) : Carries x y := same ▸ refl x

theorem of_error {e : ε} : Carries (.error e) y := fun _ h => nomatch h

theorem trans (first : Carries x y) (rest : Carries y z) : Carries x z :=
  fun a h => rest a (first a h)

theorem bind {f g : α → Except ε β} (first : Carries x y)
    (rest : ∀ a, x = .ok a → Carries (f a) (g a)) : Carries (x >>= f) (y >>= g) := by
  intro b h
  obtain ⟨a, given, h⟩ := bind_eq_ok_iff.mp h
  exact bind_eq_ok_iff.mpr ⟨a, first a given, rest a given b h⟩

theorem map {f : α → β} (carries : Carries x y) : Carries (f <$> x) (f <$> y) := by
  intro b h
  obtain ⟨a, given, h⟩ := map_eq_ok_iff.mp h
  exact map_eq_ok_iff.mpr ⟨a, carries a given, h⟩

/-- A fold carries over if each of its steps does. -/
theorem foldlM {f : β → α → Except ε β} {g : β → γ → Except ε β} {l : List α} {l' : List γ}
    (steps : List.Forall₂ (fun a a' => ∀ b, Carries (f b a) (g b a')) l l') (b : β) :
    Carries (l.foldlM f b) (l'.foldlM g b) := by
  induction steps generalizing b with
  | nil => exact refl _
  | cons first _ ih =>
    rw [List.foldlM_cons, List.foldlM_cons]
    exact bind (first b) fun b' _ => ih b'

/-- A traversal carries over if each of its steps does. -/
theorem mapM {f : α → Except ε β} {g : γ → Except ε β} {l : List α} {l' : List γ}
    (steps : List.Forall₂ (fun a a' => Carries (f a) (g a')) l l') :
    Carries (l.mapM f) (l'.mapM g) := by
  induction steps with
  | nil => exact refl _
  | cons first _ ih =>
    rw [List.mapM_cons, List.mapM_cons]
    exact bind first fun b _ => bind ih fun bs _ => refl _

end Carries

end Outcome

open Outcome (Carries)

/-! ## One document -/

namespace Document

variable {v : Version} {requested : Language} {template : StyleRecord} {m m' : Mapping}
  {index : Nat}

/-- **A mapping is read like another one** if all that is looked for in it is found there. -/
structure ReadLike (v : Version) (requested : Language) (m m' : Mapping) : Prop where
  language : Carries (readLanguage v.schema m) (readLanguage v.schema m')
  base : ∀ template : StyleRecord, template.version = v →
    Carries (readBase requested m template).outcome (readBase requested m' template).outcome
  edits : ∀ basedOn start, start.version = v →
    Carries (edit v m basedOn start) (edit v m' basedOn start)
  keys : Carries (checkKeys v.schema m).outcome (checkKeys v.schema m').outcome

theorem ReadLike.refl (m : Mapping) : ReadLike v requested m m :=
  ⟨.refl _, fun _ _ => .refl _, fun _ _ _ => .refl _, .refl _⟩

theorem ReadLike.trans {m'' : Mapping} (first : ReadLike v requested m m')
    (rest : ReadLike v requested m' m'') : ReadLike v requested m m'' where
  language := first.language.trans rest.language
  base template version := (first.base template version).trans (rest.base template version)
  edits basedOn start version :=
    (first.edits basedOn start version).trans (rest.edits basedOn start version)
  keys := first.keys.trans rest.keys

/-- What a document gives, one gives that is read like it. -/
theorem ReadLike.carries (like : ReadLike v requested m m') (version : template.version = v) :
    Carries (read requested template index m).outcome
      (read requested template index m').outcome := by
  intro d h
  obtain ⟨spoken, placed, h⟩ := read_eq_ok_iff.mp h
  obtain ⟨-, start, filled, base, edited, known, finished⟩ := readFor_eq_ok_iff.mp h
  have begun : start.version = v := (tags_of_readBase base).1.trans version
  subst version
  exact read_eq_ok_iff.mpr ⟨like.language _ spoken, placed, readFor_eq_ok_iff.mpr
    ⟨rfl, start, filled, like.base { template with language := d.language } rfl _ base,
      like.edits _ _ begun _ edited, like.keys _ known, finished⟩⟩

end Document

/-! ## Configurations -/

namespace Configuration

variable {v : Version} {text text' : String} {requested : Language} {ambient : StyleRecord}
  {ms ms' : List Mapping} {documents : List Document}

open Document (ReadLike)

/-- **Documents are read like others**, each on top of the same base. -/
theorem readAll_carries (version : ambient.version = v)
    (like : List.Forall₂ (ReadLike v requested) ms ms') :
    Carries (readAll requested ambient ms).outcome (readAll requested ambient ms').outcome := by
  intro documents all
  obtain ⟨apart, each⟩ := readAll_eq_ok_iff.mp all
  have based : ∀ d, (base ambient documents d).version = v := base_holds
    (P := fun r => r.version = v) version
    fun d first => version_of_readAll version all d (List.mem_of_head? first)
  have others : ∀ {l l' : List Mapping} {ds : List Document},
      List.Forall₂ (ReadLike v requested) l l' →
        List.Forall₂ (ReadAlone requested ambient documents) l ds →
          List.Forall₂ (ReadAlone requested ambient documents) l' ds := by
    intro l l' ds like each
    induction like generalizing ds with
    | nil => exact each
    | cons first _ ih =>
      cases each with
      | cons read rest => exact .cons (first.carries (based _) _ read) (ih rest)
  exact readAll_eq_ok_iff.mpr ⟨apart, others like each⟩

/-- **Configurations are read like others** that hold other mappings for the same documents. -/
theorem ofMappings_carries (version : ambient.version = v)
    (like : List.Forall₂ (ReadLike v requested) ms ms') :
    Carries (ofMappings requested ambient ms).outcome
      (ofMappings requested ambient ms').outcome := by
  intro c accepted
  obtain ⟨several, documents, all, selects, lawful⟩ := ofMappings_eq_ok_iff.mp accepted
  refine ofMappings_eq_ok_iff.mpr ⟨?_, documents, readAll_carries version like _ all, selects,
    lawful⟩
  rwa [← like.length_eq]

/-- **Texts are read like others** whose mappings are. -/
theorem read_carries (spells : Spells text ms) (spells' : Spells text' ms')
    (like : List.Forall₂ (ReadLike v requested) ms ms') :
    Carries (read v text requested ambient).outcome (read v text' requested ambient).outcome := by
  intro c accepted
  obtain ⟨supported, version, accepted⟩ := read_eq_ok_iff.mp accepted
  rw [spells.1, if_neg (by simp)] at accepted
  obtain ⟨read, mappings, accepted⟩ := accepted
  obtain rfl := Except.ok.inj (spells.2.symm.trans mappings)
  refine read_eq_ok_iff.mpr ⟨supported, version, ?_⟩
  rw [spells'.1, if_neg (by simp)]
  have version' : { ambient with language := requested }.version = v := version
  exact ⟨ms', spells'.2, ofMappings_carries version' like _ accepted⟩

end Configuration

end FormatStyle
