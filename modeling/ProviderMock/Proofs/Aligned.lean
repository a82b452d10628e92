import Mathlib.Data.List.Forall2
import ProviderMock.Fields

/-!
# Aligned fields

Two lists of named things are *aligned* when they have the same names in the same order and the
values under each name are related. What a walk returns is aligned with what it walked over: the
fields of an object with the parts of its schema, the entries of a map with the entries of its
target.

* **construction** — `Fields.aligned_ofList` and `Entries.aligned_ofList`: putting and sorting keep
  lists aligned, whatever names are repeated.
* **reading** — `Fields.Aligned.lookup`: what is read under a name of one list has its partner in
  the other.
-/

namespace ProviderMock

variable {α β γ : Type}

section Related

variable {R : α → β → Prop} {xs : List α} {ys : List β}

/-- A member of the second list has its partner in the first. -/
theorem exists_mem_left (h : List.Forall₂ R xs ys) {y : β} (hy : y ∈ ys) : ∃ x ∈ xs, R x y := by
  induction h with
  | nil => cases hy
  | @cons x z xs ys hxz _ ih =>
    rcases List.mem_cons.mp hy with rfl | hy
    · exact ⟨x, List.mem_cons_self, hxz⟩
    · obtain ⟨w, hw, hR⟩ := ih hy
      exact ⟨w, List.mem_cons_of_mem _ hw, hR⟩

/-- A member of the first list has its partner in the second. -/
theorem exists_mem_right (h : List.Forall₂ R xs ys) {x : α} (hx : x ∈ xs) : ∃ y ∈ ys, R x y :=
  exists_mem_left h.flip hx

/-- Lists stay related one by one when related members are related in another way. -/
theorem forall₂_imp_of_mem {S : α → β → Prop} (h : List.Forall₂ R xs ys)
    (hRS : ∀ x ∈ xs, ∀ y ∈ ys, R x y → S x y) : List.Forall₂ S xs ys := by
  induction h with
  | nil => exact .nil
  | @cons x y xs ys hxy _ ih =>
    refine .cons (hRS x List.mem_cons_self y List.mem_cons_self hxy) (ih fun a ha b hb => ?_)
    exact hRS a (List.mem_cons_of_mem _ ha) b (List.mem_cons_of_mem _ hb)

/-- Lists that are related through a third one are related if members are. -/
theorem forall₂_trans {S : β → γ → Prop} {T : α → γ → Prop} {zs : List γ}
    (hys : List.Forall₂ R xs ys) (hzs : List.Forall₂ S ys zs)
    (h : ∀ x ∈ xs, ∀ y ∈ ys, ∀ z ∈ zs, R x y → S y z → T x z) : List.Forall₂ T xs zs := by
  induction hys generalizing zs with
  | nil =>
    cases hzs
    exact .nil
  | @cons x y xs ys hxy _ ih =>
    rcases hzs with _ | @⟨_, z, _, zs, hyz, hzs⟩
    refine .cons (h x List.mem_cons_self y List.mem_cons_self z List.mem_cons_self hxy hyz)
      (ih hzs fun a ha b hb c hc => ?_)
    exact h a (List.mem_cons_of_mem _ ha) b (List.mem_cons_of_mem _ hb) c
      (List.mem_cons_of_mem _ hc)

/-- Lists that are related to related ones are related if members are. -/
theorem forall₂_of_square {δ : Type} {S : α → γ → Prop} {T : β → δ → Prop} {P : γ → δ → Prop}
    {zs : List γ} {ws : List δ} (hys : List.Forall₂ R xs ys) (hzs : List.Forall₂ S xs zs)
    (hws : List.Forall₂ T ys ws)
    (h : ∀ x ∈ xs, ∀ y ∈ ys, ∀ z ∈ zs, ∀ w ∈ ws, R x y → S x z → T y w → P z w) :
    List.Forall₂ P zs ws := by
  have hacross := forall₂_trans (T := fun z y => ∃ x ∈ xs, R x y ∧ S x z) hzs.flip hys
    fun _ _ x hx _ _ hxz hxy => ⟨x, hx, hxy, hxz⟩
  refine forall₂_trans hacross hws fun z hz y hy w hw hzy hyw => ?_
  obtain ⟨x, hx, hxy, hxz⟩ := hzy
  exact h x hx y hy z hz w hw hxy hxz hyw

/-- If what is related to one member is always related to something that this member is related to
in another way, there is a list of such things. -/
theorem exists_related {S : α → γ → Prop} {T : β → γ → Prop} (hys : List.Forall₂ R xs ys)
    (h : ∀ x ∈ xs, ∀ y, R x y → ∃ z, S x z ∧ T y z) :
    ∃ zs, List.Forall₂ S xs zs ∧ List.Forall₂ T ys zs := by
  induction hys with
  | nil => exact ⟨[], .nil, .nil⟩
  | @cons x y xs ys hxy _ ih =>
    obtain ⟨z, hxz, hyz⟩ := h x List.mem_cons_self y hxy
    obtain ⟨zs, hxzs, hyzs⟩ := ih fun x hx => h x (List.mem_cons_of_mem _ hx)
    exact ⟨z :: zs, .cons hxz hxzs, .cons hyz hyzs⟩

/-- If everything is related to something, there is a list of what it is related to. -/
theorem exists_forall₂ (h : ∀ x ∈ xs, ∃ y, R x y) : ∃ ys, List.Forall₂ R xs ys := by
  induction xs with
  | nil => exact ⟨[], .nil⟩
  | cons x rest ih =>
    obtain ⟨y, hxy⟩ := h x List.mem_cons_self
    obtain ⟨ys, hys⟩ := ih fun x hx => h x (List.mem_cons_of_mem _ hx)
    exact ⟨y :: ys, .cons hxy hys⟩

/-- What holds between any two members of a list, the first before the second, holds between those
that they are related to. -/
theorem pairwise_of_forall₂ {P : α → α → Prop} {Q : β → β → Prop} (h : List.Forall₂ R xs ys)
    (hxs : xs.Pairwise P)
    (hPQ : ∀ a ∈ xs, ∀ b ∈ xs, ∀ c d, R a c → R b d → P a b → Q c d) : ys.Pairwise Q := by
  induction h with
  | nil => exact .nil
  | @cons x y xs ys hxy hrest ih =>
    obtain ⟨hfirst, hxs⟩ := List.pairwise_cons.mp hxs
    refine List.pairwise_cons.mpr ⟨fun d hd => ?_, ih hxs fun a ha b hb => ?_⟩
    · obtain ⟨b, hb, hbd⟩ := exists_mem_left hrest hd
      exact hPQ x List.mem_cons_self b (List.mem_cons_of_mem _ hb) y d hxy hbd (hfirst b hb)
    · exact hPQ a (List.mem_cons_of_mem _ ha) b (List.mem_cons_of_mem _ hb)

/-- Members that become the same by two functions make the same lists. -/
theorem map_eq_map_of_forall₂ {f : α → γ} {g : β → γ}
    (h : List.Forall₂ (fun x y => f x = g y) xs ys) : xs.map f = ys.map g := by
  rwa [← List.forall₂_eq_eq_eq, List.forall₂_map_left_iff, List.forall₂_map_right_iff]

/-- Related by a function is the same as obtained by the function. -/
theorem eq_map_of_forall₂ {f : α → β} (h : List.Forall₂ (fun x y => y = f x) xs ys) :
    ys = xs.map f := by
  induction h with
  | nil => rfl
  | cons hxy _ ih => rw [List.map_cons, hxy, ih]

/-- Three lists of one length, with related members at every position. -/
inductive Forall₃ (T : α → β → γ → Prop) : List α → List β → List γ → Prop where
  | nil : Forall₃ T [] [] []
  | cons {x : α} {y : β} {z : γ} {xs : List α} {ys : List β} {zs : List γ} (h : T x y z)
      (hrest : Forall₃ T xs ys zs) : Forall₃ T (x :: xs) (y :: ys) (z :: zs)

/-- Two lists that are related to a third one make three related lists. -/
theorem forall₃_of_forall₂ {S : α → γ → Prop} {T : α → β → γ → Prop} {zs : List γ}
    (hys : List.Forall₂ R xs ys) (hzs : List.Forall₂ S xs zs)
    (h : ∀ x ∈ xs, ∀ y z, R x y → S x z → T x y z) : Forall₃ T xs ys zs := by
  induction hys generalizing zs with
  | nil =>
    cases hzs
    exact .nil
  | cons hR _ ih =>
    rcases hzs with _ | ⟨hS, hzs⟩
    exact .cons (h _ List.mem_cons_self _ _ hR hS)
      (ih hzs fun x hx => h x (List.mem_cons_of_mem _ hx))

end Related

namespace Fields

/-- The same names in the same order, and related values under each. -/
def Aligned (R : String → α → β → Prop) (xs : List (String × α)) (ys : List (String × β)) : Prop :=
  List.Forall₂ (fun x y => x.1 = y.1 ∧ R x.1 x.2 y.2) xs ys

variable {R : String → α → β → Prop} {xs : List (String × α)} {ys : List (String × β)}

theorem Aligned.names_eq (h : Aligned R xs ys) : names xs = names ys := by
  induction h with
  | nil => rfl
  | cons hxy _ ih => rw [names_cons, names_cons, hxy.1, ih]

/-- What is aligned with distinct names has distinct names. -/
theorem Aligned.distinct (h : Aligned R xs ys) (hxs : Distinct xs) : Distinct ys := by
  rw [Distinct, ← h.names_eq]
  exact hxs

/-- Aligned lists stay aligned when members of the first are related to more. -/
theorem Aligned.imp {S : String → α → β → Prop} (h : Aligned R xs ys)
    (hRS : ∀ name a b, (name, a) ∈ xs → R name a b → S name a b) : Aligned S xs ys :=
  forall₂_imp_of_mem h fun x hx y _ hxy => ⟨hxy.1, hRS x.1 x.2 y.2 hx hxy.2⟩

/-- Where the relation knows no names, aligned lists have the same names and related values. -/
theorem aligned_iff {S : α → β → Prop} : Aligned (fun _ => S) xs ys ↔
    names xs = names ys ∧ List.Forall₂ S (xs.map Prod.snd) (ys.map Prod.snd) := by
  induction xs generalizing ys with
  | nil => cases ys <;> simp [Aligned]
  | cons x rest ih =>
    cases ys with
    | nil => simp [Aligned]
    | cons y more =>
      have h := @ih more
      simp only [Aligned] at h ⊢
      simp only [List.forall₂_cons, names_cons, List.map_cons, List.cons.injEq, h]
      tauto

/-- The names are those under which something is read. -/
theorem mem_names_iff {name : String} : name ∈ names xs ↔ ∃ a, xs.lookup name = some a :=
  has_iff.symm.trans Option.isSome_iff_exists

/-- What is read from one list has its partner under the name in another one, if this has the names
in another order and what both have under one name is related. -/
theorem exists_lookup_of_perm {S : α → β → Prop} (hnames : (names xs).Perm (names ys))
    (h : ∀ name a b, xs.lookup name = some a → ys.lookup name = some b → S a b) {name : String}
    {a : α} (ha : xs.lookup name = some a) : ∃ b, ys.lookup name = some b ∧ S a b := by
  obtain ⟨b, hb⟩ := mem_names_iff.mp (hnames.mem_iff.mp (mem_names_iff.mpr ⟨a, ha⟩))
  exact ⟨b, hb, h name a b ha hb⟩

/-- Distinct names in one order, and related values under them, make aligned lists. -/
theorem aligned_of_lookup (hxs : Distinct xs) (hnames : names xs = names ys)
    (h : ∀ name a b, xs.lookup name = some a → ys.lookup name = some b → R name a b) :
    Aligned R xs ys := by
  induction xs generalizing ys with
  | nil =>
    cases ys with
    | nil => exact .nil
    | cons y more => cases hnames
  | cons x rest ih =>
    cases ys with
    | nil => cases hnames
    | cons y more =>
      obtain ⟨n, a⟩ := x
      obtain ⟨m, b⟩ := y
      obtain ⟨rfl, hrest⟩ : n = m ∧ names rest = names more := List.cons.inj hnames
      obtain ⟨hn, hdistinct⟩ := List.nodup_cons.mp hxs
      refine .cons ⟨rfl, h n a b (by rw [lookup_cons, if_pos rfl]) (by rw [lookup_cons, if_pos rfl])⟩
        (ih hdistinct hrest fun name c d hc hd => ?_)
      -- a name of the others is not the first one
      have hne : name ≠ n := by
        rintro rfl
        exact hn (mem_names_iff.mpr ⟨c, hc⟩)
      exact h name c d (by rw [lookup_cons, if_neg hne, hc]) (by rw [lookup_cons, if_neg hne, hd])

/-- Distinct names in one order, and the same values under them, make the same fields. -/
theorem eq_of_lookup_eq {xs ys : List (String × α)} (hxs : Distinct xs)
    (hnames : names xs = names ys)
    (h : ∀ name a b, xs.lookup name = some a → ys.lookup name = some b → a = b) : xs = ys := by
  have haligned : Aligned (fun _ a b => a = b) xs ys := aligned_of_lookup hxs hnames h
  rw [← List.forall₂_eq_eq_eq]
  exact List.Forall₂.imp (fun _ _ h => Prod.ext h.1 h.2) haligned

/-- What is read from the second list has its partner in the first. -/
theorem Aligned.lookup (h : Aligned R xs ys) {name : String} {b : β}
    (hb : ys.lookup name = some b) : ∃ a, xs.lookup name = some a ∧ R name a b := by
  induction h with
  | nil => cases hb
  | @cons x y xs ys hxy _ ih =>
    obtain ⟨n, a⟩ := x
    obtain ⟨m, c⟩ := y
    obtain ⟨rfl, hR⟩ := hxy
    rw [lookup_cons] at hb
    rw [lookup_cons]
    by_cases hn : name = n
    · rw [if_pos hn] at hb ⊢
      obtain rfl := Option.some.inj hb
      exact ⟨a, rfl, hn ▸ hR⟩
    · rw [if_neg hn] at hb ⊢
      exact ih hb

/-- A member of the second list has its partner in the first, under its name. -/
theorem Aligned.exists_left (h : Aligned R xs ys) {y : String × β} (hy : y ∈ ys) :
    ∃ a, (y.1, a) ∈ xs ∧ R y.1 a y.2 := by
  obtain ⟨⟨n, a⟩, ha, rfl, hR⟩ := exists_mem_left h hy
  exact ⟨a, ha, hR⟩

/-- A member of the first list has its partner in the second, where it is read under its name. -/
theorem Aligned.exists_lookup (h : Aligned R xs ys) (hys : Distinct ys) {x : String × α}
    (hx : x ∈ xs) : ∃ b, ys.lookup x.1 = some b ∧ R x.1 x.2 b := by
  obtain ⟨⟨_, b⟩, hb, rfl, hR⟩ := exists_mem_right h hx
  exact ⟨b, lookup_of_mem hys hb, hR⟩

theorem Aligned.put (h : Aligned R xs ys) {name : String} {a : α} {b : β} (hab : R name a b) :
    Aligned R (put xs name a) (put ys name b) := by
  induction h with
  | nil => exact .cons ⟨rfl, hab⟩ .nil
  | @cons x y xs ys hxy hrest ih =>
    obtain ⟨n, c⟩ := x
    obtain ⟨m, d⟩ := y
    obtain ⟨rfl, hR⟩ := hxy
    by_cases hn : n = name
    · subst hn
      simp only [Fields.put]
      exact .cons ⟨rfl, hab⟩ hrest
    · simp only [Fields.put, if_neg hn]
      exact .cons ⟨rfl, hR⟩ ih

/-- Going through aligned pairs keeps lists aligned if every step does. -/
theorem Aligned.foldl {f : List (String × α) → String → α → List (String × α)}
    {g : List (String × β) → String → β → List (String × β)}
    (hstep : ∀ {fs gs name a b}, Aligned R fs gs → R name a b →
      Aligned R (f fs name a) (g gs name b))
    (h : Aligned R xs ys) {fs : List (String × α)} {gs : List (String × β)}
    (hfg : Aligned R fs gs) :
    Aligned R (xs.foldl (fun fs pair => f fs pair.1 pair.2) fs)
      (ys.foldl (fun gs pair => g gs pair.1 pair.2) gs) := by
  induction h generalizing fs gs with
  | nil => exact hfg
  | @cons x y xs ys hxy _ ih =>
    obtain ⟨n, a⟩ := x
    obtain ⟨m, b⟩ := y
    obtain ⟨rfl, hR⟩ := hxy
    exact ih (hstep hfg hR)

/-- If everything is related to something, there is an aligned list of what it is related to. -/
theorem exists_aligned {S : String → α → β → Prop} (h : ∀ x ∈ xs, ∃ b, S x.1 x.2 b) :
    ∃ ys, Aligned S xs ys := by
  refine exists_forall₂ fun x hx => ?_
  obtain ⟨b, hb⟩ := h x hx
  exact ⟨(x.1, b), rfl, hb⟩

/-- If two lists have the same names, and under each of them there is something that what they have
there is related to, then there is a list of such things, aligned with the second one. -/
theorem exists_aligned_of_has {S : α → β → γ → Prop} (hys : Distinct ys)
    (hnames : ∀ name, has xs name = has ys name)
    (h : ∀ name a b, xs.lookup name = some a → ys.lookup name = some b → ∃ c, S a b c) :
    ∃ zs, Aligned (fun name b c => ∃ a, xs.lookup name = some a ∧ S a b c) ys zs := by
  refine exists_aligned fun y hy => ?_
  obtain ⟨a, ha⟩ : ∃ a, xs.lookup y.1 = some a := by
    rw [← mem_names_iff, ← has_iff, hnames, has_iff]
    exact List.mem_map_of_mem hy
  obtain ⟨c, hc⟩ := h y.1 a y.2 ha (lookup_of_mem hys hy)
  exact ⟨c, a, ha, hc⟩

/-- Distinct names are the same up to order if the same names are there. -/
theorem perm_names_of_has (hxs : Distinct xs) (hys : Distinct ys)
    (h : ∀ name, has xs name = has ys name) : (names xs).Perm (names ys) := by
  refine (List.perm_ext_iff_of_nodup hxs hys).mpr fun name => ?_
  rw [← has_iff, h, has_iff]

/-- Putting aligned pairs one after the other keeps them aligned. -/
theorem aligned_ofList (h : Aligned R xs ys) : Aligned R (ofList xs) (ofList ys) :=
  Aligned.foldl (f := put) (g := put) (fun hfg hab => hfg.put hab) h .nil

/-- Applying a function to every value gives aligned lists. -/
theorem aligned_mapValues (f : α → β) (xs : List (String × α)) :
    Aligned (fun _ a b => b = f a) xs (mapValues f xs) := by
  induction xs with
  | nil => exact .nil
  | cons x rest ih => exact .cons ⟨rfl, rfl⟩ ih

/-- Aligned with the values of a function is the same as obtained by the function. -/
theorem Aligned.eq_mapValues {f : α → β} (h : Aligned (fun _ a b => b = f a) xs ys) :
    ys = mapValues f xs := by
  induction h with
  | nil => rfl
  | @cons x y xs ys hxy _ ih =>
    obtain ⟨m, d⟩ := y
    obtain ⟨rfl, rfl⟩ := hxy
    rw [ih]
    rfl

/-- Values that become the same by two functions make the same fields. -/
theorem Aligned.mapValues_eq {f : α → γ} {g : β → γ}
    (h : Aligned (fun _ a b => f a = g b) xs ys) : mapValues f xs = mapValues g ys := by
  induction h with
  | nil => rfl
  | @cons x y xs ys hxy _ ih =>
    simp only [mapValues, List.map_cons] at ih ⊢
    rw [hxy.1, hxy.2, ih]

/-- It is all the same whether a function is applied before or after pairs are put. -/
theorem ofList_mapValues (f : α → β) (xs : List (String × α)) :
    ofList (mapValues f xs) = mapValues f (ofList xs) :=
  (aligned_ofList (aligned_mapValues f xs)).eq_mapValues

/-- A field that was put was put, or was there before. -/
theorem mem_put {name : String} {a : α} {x : String × α} (h : x ∈ put xs name a) :
    x = (name, a) ∨ x ∈ xs := by
  induction xs with
  | nil => exact .inl (List.mem_singleton.mp h)
  | cons y rest ih =>
    obtain ⟨n, c⟩ := y
    by_cases hn : n = name
    · rw [Fields.put, if_pos hn] at h
      rcases List.mem_cons.mp h with rfl | h
      · exact .inl (by rw [hn])
      · exact .inr (List.mem_cons_of_mem _ h)
    · rw [Fields.put, if_neg hn] at h
      rcases List.mem_cons.mp h with rfl | h
      · exact .inr List.mem_cons_self
      · exact (ih h).imp_right (List.mem_cons_of_mem _)

/-- What is in a list after going through pairs is one of them or was there before, if every step
adds its own pair alone. -/
theorem mem_foldl {f : List (String × α) → String → α → List (String × α)}
    (hstep : ∀ {fs name a x}, x ∈ f fs name a → x = (name, a) ∨ x ∈ fs) {x : String × α}
    {fs : List (String × α)} (h : x ∈ xs.foldl (fun fs pair => f fs pair.1 pair.2) fs) :
    x ∈ fs ∨ x ∈ xs := by
  induction xs generalizing fs with
  | nil => exact .inl h
  | cons pair rest ih =>
    rcases ih h with hx | hx
    · rcases hstep hx with rfl | hx
      · exact .inr List.mem_cons_self
      · exact .inl hx
    · exact .inr (List.mem_cons_of_mem _ hx)

/-- After going through pairs of distinct names these have the values of the pairs, if every step
sets its own name alone. -/
theorem lookup_foldl {f : List (String × α) → String → α → List (String × α)}
    (hstep : ∀ fs name a other,
      (f fs name a).lookup other = if other = name then some a else fs.lookup other)
    (hxs : Distinct xs) (fs : List (String × α)) (name : String) :
    (xs.foldl (fun fs pair => f fs pair.1 pair.2) fs).lookup name =
      (xs.lookup name).or (fs.lookup name) := by
  induction xs generalizing fs with
  | nil => rfl
  | cons pair rest ih =>
    obtain ⟨n, a⟩ := pair
    obtain ⟨hn, hrest⟩ := List.nodup_cons.mp hxs
    rw [List.foldl_cons, ih hrest, hstep, lookup_cons]
    by_cases hname : name = n
    · have hnone : rest.lookup name = none := by
        rw [← Option.not_isSome_iff_eq_none, hname]
        exact mt has_iff.mp hn
      rw [if_pos hname, if_pos hname, hnone]
      rfl
    · rw [if_neg hname, if_neg hname]

/-- Every field that is kept is one of the pairs. -/
theorem mem_of_mem_ofList {x : String × α} (h : x ∈ ofList xs) : x ∈ xs :=
  (mem_foldl mem_put h).resolve_left List.not_mem_nil

/-- Where no name is repeated, nothing is. -/
theorem Distinct.nodup (h : Distinct xs) : xs.Nodup :=
  List.Pairwise.of_map Prod.fst (fun _ _ hne heq => hne (congrArg Prod.fst heq)) h

end Fields

namespace Entries

open Fields (Aligned)

variable {R : String → α → β → Prop} {xs : List (String × α)} {ys : List (String × β)}

theorem aligned_insert (h : Aligned R xs ys) {name : String} {a : α} {b : β}
    (hab : R name a b) : Aligned R (insert xs name a) (insert ys name b) := by
  induction h with
  | nil => exact .cons ⟨rfl, hab⟩ .nil
  | @cons x y xs ys hxy hrest ih =>
    obtain ⟨n, c⟩ := x
    obtain ⟨m, d⟩ := y
    obtain ⟨rfl, hR⟩ := hxy
    simp only [insert]
    split
    · rename_i hn
      exact .cons ⟨rfl, hn ▸ hab⟩ hrest
    · split
      · exact .cons ⟨rfl, hab⟩ (.cons ⟨rfl, hR⟩ hrest)
      · exact .cons ⟨rfl, hR⟩ ih

/-- Sorting aligned pairs keeps them aligned. -/
theorem aligned_ofList (h : Aligned R xs ys) : Aligned R (ofList xs) (ofList ys) :=
  Aligned.foldl (f := insert) (g := insert) (fun hfg hab => aligned_insert hfg hab) h .nil

/-- A name above all others goes to the end. -/
theorem insert_of_forall_lt {name : String} (h : ∀ n ∈ Fields.names xs, n < name) (a : α) :
    insert xs name a = xs ++ [(name, a)] := by
  induction xs with
  | nil => rfl
  | cons x rest ih =>
    obtain ⟨n, c⟩ := x
    have hlt : n < name := h n List.mem_cons_self
    have hne : ¬ n = name := fun heq => String.lt_irrefl name (heq ▸ hlt)
    rw [insert, if_neg hne, if_neg (fun hlt' => String.lt_irrefl n (String.lt_trans hlt hlt')),
      ih fun m hm => h m (List.mem_cons_of_mem _ hm)]
    rfl

/-- Sorting changes nothing of what is read under distinct names. -/
theorem lookup_ofList (h : Fields.Distinct xs) (name : String) :
    (ofList xs).lookup name = xs.lookup name :=
  (Fields.lookup_foldl lookup_insert h [] name).trans Option.or_none

/-- Sorting changes nothing of pairs with distinct names but their order. -/
theorem perm_ofList (h : Fields.Distinct xs) : (ofList xs).Perm xs := by
  have hsorted := (ascending_ofList xs).distinct
  rw [List.perm_ext_iff_of_nodup hsorted.nodup h.nodup]
  rintro ⟨name, a⟩
  constructor
  · intro hmem
    exact Fields.mem_of_lookup ((lookup_ofList h name).symm.trans (Fields.lookup_of_mem hsorted hmem))
  · intro hmem
    exact Fields.mem_of_lookup ((lookup_ofList h name).trans (Fields.lookup_of_mem h hmem))

/-- Sorting changes nothing of distinct names but their order. -/
theorem perm_names_ofList (h : Fields.Distinct xs) :
    (Fields.names (ofList xs)).Perm (Fields.names xs) :=
  (perm_ofList h).map Prod.fst

/-- Pairs whose names ascend stay as they are. -/
theorem ofList_eq_self (h : Ascending xs) : ofList xs = xs := by
  -- each pair that is inserted is above all before it, so it goes to the end
  have aux : ∀ pairs entries : List (String × α), Ascending (entries ++ pairs) →
      pairs.foldl (fun entries pair => insert entries pair.1 pair.2) entries =
        entries ++ pairs := by
    intro pairs
    induction pairs with
    | nil => simp
    | cons pair rest ih =>
      intro entries h
      have hlt : ∀ n ∈ Fields.names entries, n < pair.1 := by
        rw [Ascending, Fields.names_append] at h
        exact fun n hn => (List.pairwise_append.mp h).2.2 n hn pair.1 List.mem_cons_self
      rw [List.foldl_cons, insert_of_forall_lt hlt, ih _ (by simpa using h)]
      simp
  exact aux xs [] h

/-- Ascending names come in one order only. -/
theorem names_eq_of_perm (hxs : Ascending xs) (hys : Ascending ys)
    (h : (Fields.names xs).Perm (Fields.names ys)) : Fields.names xs = Fields.names ys :=
  h.eq_of_pairwise (fun _ _ _ _ hlt hgt => absurd hgt (String.lt_asymm hlt)) hxs hys

/-- What ascends comes in one order only. -/
theorem eq_of_perm {xs ys : List (String × α)} (hxs : Ascending xs) (hys : Ascending ys)
    (h : xs.Perm ys) : xs = ys := by
  have hpairwise : ∀ {zs : List (String × α)}, Ascending zs → zs.Pairwise fun a b => a.1 < b.1 :=
    List.pairwise_map.mp
  exact h.eq_of_pairwise (fun _ _ _ _ hlt hgt => absurd hgt (String.lt_asymm hlt))
    (hpairwise hxs) (hpairwise hys)

/-- What is picked out of sorted pairs is what is picked out of the pairs themselves, if that
ascends. -/
theorem filter_ofList {p : String × α → Bool} (h : Fields.Distinct xs)
    (hp : Ascending (xs.filter p)) : (ofList xs).filter p = xs.filter p :=
  eq_of_perm ((ascending_ofList xs).sublist (List.filter_sublist.map Prod.fst)) hp
    ((perm_ofList h).filter p)

/-- What is aligned with ascending names has ascending names. -/
theorem ascending_of_aligned (h : Aligned R xs ys) (hxs : Ascending xs) : Ascending ys := by
  rw [Ascending, ← h.names_eq]
  exact hxs

/-- An entry that was inserted was inserted, or was there before. -/
theorem mem_insert {name : String} {a : α} {x : String × α} (h : x ∈ insert xs name a) :
    x = (name, a) ∨ x ∈ xs := by
  induction xs with
  | nil => exact .inl (List.mem_singleton.mp h)
  | cons y rest ih =>
    obtain ⟨n, c⟩ := y
    rw [insert] at h
    split at h
    · rename_i hn
      rcases List.mem_cons.mp h with rfl | h
      · exact .inl (by rw [hn])
      · exact .inr (List.mem_cons_of_mem _ h)
    · split at h
      · exact (List.mem_cons.mp h).imp_right id
      · rcases List.mem_cons.mp h with rfl | h
        · exact .inr List.mem_cons_self
        · exact (ih h).imp_right (List.mem_cons_of_mem _)

/-- Every entry of a sorted list is one of the pairs. -/
theorem mem_of_mem_ofList {x : String × α} (h : x ∈ ofList xs) : x ∈ xs :=
  (Fields.mem_foldl mem_insert h).resolve_left List.not_mem_nil

end Entries

end ProviderMock
