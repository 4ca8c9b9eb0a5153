import CfOperator.LinkInfos

namespace CfOperator.Scan

variable (P : Packages) (deployment : BOSHDeployment)

def Matching (s : Secret) : Prop :=
  s.annotations.lookup P.labelDeploymentName = some deployment.name

instance : DecidablePred (Matching P deployment) :=
  fun _ => inferInstanceAs (Decidable (_ = _))

def provider (s : Secret) : Option LinkProvider :=
  if Matching P deployment s then (P.newLinkProvider s.annotations).toOption else none

def claims (M : StringMap Bool) (secrets : List Secret) : List (Secret × LinkProvider) :=
  secrets.filterMap fun s =>
    (provider P deployment s).bind fun lp => if lp.name ∈ M then some (s, lp) else none

/-- The loop over secrets meets no error: every secret of this deployment parses, no two
claim the same provider, and none claims a provider already marked found. -/
def Clean (M : StringMap Bool) (secrets : List Secret) : Prop :=
  (∀ s ∈ secrets, Matching P deployment s → (P.newLinkProvider s.annotations).toBool) ∧
  ((claims P deployment M secrets).map (·.2.name)).Nodup ∧
  ∀ c ∈ claims P deployment M secrets, M.lookup c.2.name = some false

def scanResult (st : SecretScan) (cs : List (Secret × LinkProvider)) : SecretScan :=
  cs.foldl (fun st c => st.record c.1 c.2) st

variable {P deployment}

theorem mem_claims {M : StringMap Bool} {secrets : List Secret} {c : Secret × LinkProvider} :
    c ∈ claims P deployment M secrets ↔
      c.1 ∈ secrets ∧ provider P deployment c.1 = some c.2 ∧ c.2.name ∈ M := by
  rcases c with ⟨s, lp⟩
  simp only [claims, List.mem_filterMap, Option.bind_eq_some]
  constructor
  · rintro ⟨s', hs', lp', hp, hlp⟩
    split_ifs at hlp with hm
    cases hlp
    exact ⟨hs', hp, hm⟩
  · rintro ⟨hs, hp, hm⟩
    exact ⟨s, hs, lp, hp, by simp [hm]⟩

theorem provider_eq_some {s : Secret} {lp : LinkProvider} :
    provider P deployment s = some lp ↔
      Matching P deployment s ∧ P.newLinkProvider s.annotations = .ok lp := by
  unfold provider
  split_ifs with hm
  · cases P.newLinkProvider s.annotations <;> simp [Except.toOption, hm]
  · simp [hm]

theorem mem_claims_iff {M : StringMap Bool} {secrets : List Secret} {s : Secret}
    {lp : LinkProvider} :
    (s, lp) ∈ claims P deployment M secrets ↔ s ∈ secrets ∧ Matching P deployment s ∧
      P.newLinkProvider s.annotations = .ok lp ∧ lp.name ∈ M := by
  rw [mem_claims, provider_eq_some, and_assoc]

theorem mem_claims_names_iff {M : StringMap Bool} {secrets : List Secret} {k : String} :
    k ∈ (claims P deployment M secrets).map (·.2.name) ↔ ∃ s ∈ secrets, ∃ lp,
      Matching P deployment s ∧ P.newLinkProvider s.annotations = .ok lp ∧ lp.name ∈ M ∧
      lp.name = k := by
  simp only [List.mem_map, Prod.exists, mem_claims_iff]
  constructor
  · rintro ⟨s, lp, ⟨hs, hm, hp, hn⟩, rfl⟩
    exact ⟨s, hs, lp, hm, hp, hn, rfl⟩
  · rintro ⟨s, hs, lp, hm, hp, hn, rfl⟩
    exact ⟨s, lp, ⟨hs, hm, hp, hn⟩, rfl⟩

theorem claims_cons (M : StringMap Bool) (s : Secret) (secrets : List Secret) :
    claims P deployment M (s :: secrets) =
      claims P deployment M [s] ++ claims P deployment M secrets := by
  simp only [claims, List.filterMap_cons, List.filterMap_nil]
  cases (provider P deployment s).bind fun lp => if lp.name ∈ M then some (s, lp) else none <;> rfl

theorem claims_congr {M M' : StringMap Bool} (h : ∀ k, k ∈ M ↔ k ∈ M') (secrets : List Secret) :
    claims P deployment M secrets = claims P deployment M' secrets := by
  simp only [claims, h]

theorem claims_perm (M : StringMap Bool) {secrets secrets' : List Secret}
    (h : secrets.Perm secrets') :
    (claims P deployment M secrets).Perm (claims P deployment M secrets') :=
  h.filterMap _

theorem claims_fst_sublist (M : StringMap Bool) (secrets : List Secret) :
    ((claims P deployment M secrets).map Prod.fst).Sublist secrets := by
  induction secrets with
  | nil => simp [claims]
  | cons s secrets ih =>
      rw [claims_cons, List.map_append]
      rcases h : (provider P deployment s).bind fun lp => if lp.name ∈ M then some (s, lp) else none
        with _ | c
      · simpa [claims, h] using ih.cons s
      · obtain ⟨lp, -, hc⟩ := Option.bind_eq_some.mp h
        split_ifs at hc
        cases hc
        simpa [claims, h] using ih.cons₂ s

theorem nodup_claims_names (M : StringMap Bool) (secrets : SecretList) :
    ((claims P deployment M secrets.items).map (·.1.name)).Nodup := by
  have h := secrets.nodup_names.sublist
    ((@claims_fst_sublist P deployment M secrets.items).map Secret.name)
  rwa [List.map_map] at h

theorem clean_perm {M : StringMap Bool} {secrets secrets' : List Secret}
    (h : secrets.Perm secrets') :
    Clean P deployment M secrets ↔ Clean P deployment M secrets' := by
  have hc := @claims_perm P deployment M _ _ h
  simp only [Clean, h.mem_iff, (hc.map _).nodup_iff, hc.mem_iff]

@[simp] theorem record_missingProviders_mem (st : SecretScan) (s : Secret) (lp : LinkProvider)
    (k : String) (h : lp.name ∈ st.missingProviders) :
    k ∈ (st.record s lp).missingProviders ↔ k ∈ st.missingProviders := by
  simp only [SecretScan.record, Finmap.mem_insert]
  constructor
  · rintro (rfl | hk)
    · exact h
    · exact hk
  · exact Or.inr

theorem scanSecret_cases (st : SecretScan) (s : Secret) :
    (scanSecret P deployment st s = .ok st ∧
        claims P deployment st.missingProviders [s] = [] ∧
        (Matching P deployment s → (P.newLinkProvider s.annotations).toBool)) ∨
    ((scanSecret P deployment st s).toBool = false ∧
        ∀ secrets, ¬ Clean P deployment st.missingProviders (s :: secrets)) ∨
    (∃ lp, claims P deployment st.missingProviders [s] = [(s, lp)] ∧
        st.missingProviders.lookup lp.name = some false ∧
        scanSecret P deployment st s = .ok (st.record s lp)) := by
  by_cases hm : Matching P deployment s
  · have hm' : s.annotations.lookup P.labelDeploymentName = some deployment.name := hm
    rcases hp : P.newLinkProvider s.annotations with err | lp
    · refine .inr (.inl ⟨by simp [scanSecret, hm', hp, Except.toBool], fun _ hc => ?_⟩)
      simpa [hp, Except.toBool] using hc.1 s (List.mem_cons_self _ _) hm
    · rcases hl : st.missingProviders.lookup lp.name with _ | dup
      · refine .inl ⟨by simp [scanSecret, hm', hp, hl], ?_, fun _ => by simp [hp, Except.toBool]⟩
        simp [claims, provider, hm, hp, Except.toOption, Finmap.lookup_eq_none.mp hl]
      · have hmem : lp.name ∈ st.missingProviders := Finmap.mem_of_lookup_eq_some hl
        have hclaims : claims P deployment st.missingProviders [s] = [(s, lp)] := by
          simp [claims, provider, hm, hp, Except.toOption, hmem]
        cases dup
        · exact .inr (.inr ⟨lp, hclaims, hl, by simp [scanSecret, hm', hp, hl]⟩)
        · refine .inr (.inl ⟨by simp [scanSecret, hm', hp, hl, Except.toBool], fun _ hc => ?_⟩)
          have := hc.2.2 (s, lp) (mem_claims.mpr ⟨List.mem_cons_self _ _,
            by simp [provider, hm, hp, Except.toOption], hmem⟩)
          simp [hl] at this
  · refine .inl ⟨?_, ?_, fun h => absurd h hm⟩
    · simp [scanSecret, show ¬ s.annotations.lookup P.labelDeploymentName = some deployment.name from hm]
    · simp [claims, provider, hm]

theorem clean_cons_of_pass {M : StringMap Bool} {s : Secret} {secrets : List Secret}
    (hc : claims P deployment M [s] = [])
    (hp : Matching P deployment s → (P.newLinkProvider s.annotations).toBool) :
    Clean P deployment M (s :: secrets) ↔ Clean P deployment M secrets := by
  unfold Clean
  rw [claims_cons M s, hc, List.nil_append]
  simp only [List.forall_mem_cons]
  exact ⟨fun h => ⟨h.1.2, h.2⟩, fun h => ⟨⟨hp, h.1⟩, h.2⟩⟩

theorem clean_cons_of_record {M : StringMap Bool} {s : Secret} {lp : LinkProvider}
    {secrets : List Secret} (hc : claims P deployment M [s] = [(s, lp)])
    (hl : M.lookup lp.name = some false) :
    Clean P deployment M (s :: secrets) ↔
      Clean P deployment (M.insert lp.name true) secrets := by
  have hmem : lp.name ∈ M := Finmap.mem_of_lookup_eq_some hl
  have hkeys : ∀ k, k ∈ M.insert lp.name true ↔ k ∈ M := fun k => by
    simp only [Finmap.mem_insert]
    exact ⟨fun h => h.elim (· ▸ hmem) id, Or.inr⟩
  have hp : Matching P deployment s → (P.newLinkProvider s.annotations).toBool := fun _ => by
    have := (mem_claims.mp (hc ▸ List.mem_singleton_self (s, lp))).2.1
    simp only [provider] at this
    split_ifs at this
    revert this
    cases P.newLinkProvider s.annotations <;> simp [Except.toOption, Except.toBool]
  unfold Clean
  rw [claims_cons M s, hc, claims_congr hkeys]
  simp only [List.singleton_append, List.forall_mem_cons, List.map_cons, List.nodup_cons, hl,
    true_and, List.mem_map]
  constructor
  · rintro ⟨⟨-, hps⟩, ⟨hne, hnd⟩, hf⟩
    refine ⟨hps, hnd, fun c hcm => ?_⟩
    rw [Finmap.lookup_insert_of_ne _ (fun he => hne ⟨c, hcm, he⟩)]
    exact hf c hcm
  · rintro ⟨hps, hnd, hf⟩
    have hne : ∀ c ∈ claims P deployment M secrets, c.2.name ≠ lp.name := fun c hcm he => by
      have := hf c hcm
      rw [he, Finmap.lookup_insert] at this
      cases this
    refine ⟨⟨hp, hps⟩, ⟨fun ⟨c, hcm, he⟩ => hne c hcm he, hnd⟩, fun c hcm => ?_⟩
    simpa [Finmap.lookup_insert_of_ne _ (hne c hcm)] using hf c hcm

theorem scanSecrets_spec (st : SecretScan) (secrets : List Secret) :
    (Clean P deployment st.missingProviders secrets ∧
      scanSecrets P deployment st secrets =
        (scanResult st (claims P deployment st.missingProviders secrets), none)) ∨
    (¬ Clean P deployment st.missingProviders secrets ∧
      (scanSecrets P deployment st secrets).2.isSome) := by
  induction secrets generalizing st with
  | nil => exact .inl ⟨⟨by simp, by simp [claims], by simp [claims]⟩, rfl⟩
  | cons s secrets ih =>
      rcases scanSecret_cases st s with ⟨hs, hc, hp⟩ | ⟨hs, hnot⟩ | ⟨lp, hc, hl, hs⟩
      · rw [clean_cons_of_pass hc hp, claims_cons _ s, hc, List.nil_append]
        simp only [scanSecrets, hs]
        exact ih st
      · refine .inr ⟨hnot secrets, ?_⟩
        simp only [scanSecrets]
        split <;> simp_all [Except.toBool]
      · have hkeys := @claims_congr P deployment st.missingProviders (st.record s lp).missingProviders
          (fun k => (record_missingProviders_mem st s lp k (Finmap.mem_of_lookup_eq_some hl)).symm)
        rw [clean_cons_of_record hc hl, claims_cons _ s, hc, List.singleton_append, hkeys]
        simp only [scanSecrets, hs]
        exact ih (st.record s lp)

@[simp] theorem scanResult_cons (st : SecretScan) (c : Secret × LinkProvider)
    (cs : List (Secret × LinkProvider)) :
    scanResult st (c :: cs) = scanResult (st.record c.1 c.2) cs := rfl

theorem scanResult_linkInfos (st : SecretScan) (cs : List (Secret × LinkProvider)) :
    (scanResult st cs).linkInfos =
      st.linkInfos ++ cs.map fun c => ⟨c.1.name, c.2.name, c.2.providerType⟩ := by
  induction cs generalizing st with
  | nil => simp [scanResult]
  | cons c cs ih => simp [ih, SecretScan.record]

theorem scanResult_missingProviders (st : SecretScan) (cs : List (Secret × LinkProvider))
    (k : String) :
    (scanResult st cs).missingProviders.lookup k =
      if k ∈ cs.map (·.2.name) then some true else st.missingProviders.lookup k := by
  induction cs generalizing st with
  | nil => simp [scanResult]
  | cons c cs ih =>
      rw [scanResult_cons, ih]
      by_cases hk : k = c.2.name
      · subst hk
        simp [SecretScan.record]
      · simp only [SecretScan.record, Finmap.lookup_insert_of_ne _ hk, List.map_cons,
          List.mem_cons, hk, false_or]

theorem scanResult_quarksLinks_of_untyped (st : SecretScan) (cs : List (Secret × LinkProvider))
    (q : String) (h : ∀ c ∈ cs, c.1.name = q → c.2.providerType = "") :
    (scanResult st cs).quarksLinks.lookup q = st.quarksLinks.lookup q := by
  induction cs generalizing st with
  | nil => rfl
  | cons c cs ih =>
      rw [scanResult_cons, ih _ fun c' hc' => h c' (List.mem_cons_of_mem _ hc')]
      by_cases hq : c.1.name = q
      · simp [SecretScan.record, h c (List.mem_cons_self _ _) hq]
      · unfold SecretScan.record
        split_ifs
        · exact Finmap.lookup_insert_of_ne _ (Ne.symm hq)
        · rfl

theorem scanResult_quarksLinks_of_typed (st : SecretScan) {cs : List (Secret × LinkProvider)}
    (hnd : (cs.map (·.1.name)).Nodup) {c : Secret × LinkProvider} (hc : c ∈ cs)
    (ht : c.2.providerType ≠ "") :
    (scanResult st cs).quarksLinks.lookup c.1.name = some ⟨c.2.providerType, "", []⟩ := by
  induction cs generalizing st with
  | nil => cases hc
  | cons c' cs ih =>
      rw [List.map_cons, List.nodup_cons] at hnd
      rw [scanResult_cons]
      rcases List.mem_cons.mp hc with rfl | hc
      · rw [scanResult_quarksLinks_of_untyped _ _ _ fun c' hc' he =>
          absurd (List.mem_map_of_mem _ hc') (he ▸ hnd.1)]
        simp [SecretScan.record, ht]
      · exact ih _ hnd.2 hc

theorem mem_scanResult_quarksLinks (st : SecretScan) (cs : List (Secret × LinkProvider))
    (q : String) :
    q ∈ (scanResult st cs).quarksLinks ↔
      q ∈ st.quarksLinks ∨ ∃ c ∈ cs, c.1.name = q ∧ c.2.providerType ≠ "" := by
  induction cs generalizing st with
  | nil => simp [scanResult]
  | cons c cs ih =>
      rw [scanResult_cons, ih]
      unfold SecretScan.record
      split_ifs with ht
      · simp only [Finmap.mem_insert, List.mem_cons, exists_eq_or_imp, ne_eq, ht,
          not_false_eq_true, and_true, or_assoc, @eq_comm _ q]
        exact or_left_comm
      · simp only [List.mem_cons, exists_eq_or_imp, ht, not_true_eq_false, and_false, false_or]

end CfOperator.Scan
