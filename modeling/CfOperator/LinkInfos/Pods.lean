import CfOperator.LinkInfos

namespace CfOperator.Pods

variable (P : Packages) (deployment : BOSHDeployment)

def instancesOf (qName : String) (i : Nat) (pods : List Pod) : List JobInstance :=
  (pods.enumFrom i).map fun p => ⟨qName, p.2.uid, p.1, p.2.podIP, p.1 == 0⟩

/-- A pod listing a resolved link can be built from: it succeeded, is not empty, and every pod
has an address. -/
def Usable (pods : Except Error (List Pod)) : Prop :=
  ∃ ps, pods = .ok ps ∧ ps ≠ [] ∧ ∀ p ∈ ps, p.podIP ≠ ""

/-- What the `range` over `quarksLinks` makes of the link of secret `qName`: when a service
serves it and its pods are usable, the service's address and one instance per pod. -/
def resolvedLink (l : Listing) (serviceRecords : StringMap ServiceRecord) (qName : String)
    (link : QuarksLink) : QuarksLink :=
  match serviceRecords.lookup qName with
  | none => link
  | some r =>
    match l.pods deployment.ns r.selector with
    | .ok pods => ⟨link.type, r.dnsRecord, instancesOf qName 0 pods⟩
    | .error _ => link

variable {P deployment}

@[simp] theorem resolvedLink_type (l : Listing) (serviceRecords : StringMap ServiceRecord)
    (qName : String) (link : QuarksLink) :
    (resolvedLink deployment l serviceRecords qName link).type = link.type := by
  unfold resolvedLink
  split
  · rfl
  · split <;> rfl

theorem jobInstances_spec (qName : String) (i : Nat) (pods : List Pod) :
    ((jobInstances qName i pods).toBool ↔ ∀ p ∈ pods, p.podIP ≠ "") ∧
    ∀ l, jobInstances qName i pods = .ok l → l = instancesOf qName i pods := by
  induction pods generalizing i with
  | nil => simp [jobInstances, instancesOf, Except.toBool]
  | cons p pods ih =>
      simp only [jobInstances, List.forall_mem_cons]
      split_ifs with hp
      · simp [Except.toBool, hp]
      · obtain ⟨ih₁, ih₂⟩ := ih (i + 1)
        rcases h : jobInstances qName (i + 1) pods with err | l
        · rw [h] at ih₁
          exact ⟨ih₁.trans (and_iff_right hp).symm, nofun⟩
        · rw [h] at ih₁ ih₂
          refine ⟨ih₁.trans (and_iff_right hp).symm, ?_⟩
          rintro _ ⟨⟩
          rw [ih₂ l rfl]
          rfl

theorem getElem?_instancesOf (qName : String) (i : Nat) (pods : List Pod) (j : Nat) :
    (instancesOf qName i pods)[j]? =
      pods[j]?.map fun p => ⟨qName, p.uid, i + j, p.podIP, i + j == 0⟩ := by
  simp [instancesOf, List.getElem?_enumFrom, Option.map_map, Function.comp_def]

theorem listPodsFromSelector_fst (ns : String) (selector : StringMap String) (l : Listing) :
    (listPodsFromSelector P ns selector l).1 =
      match l.pods ns selector with
      | .error err =>
        .error (.wrap ("listing pods from selector '" ++ P.formatSelector selector ++ "':") err)
      | .ok [] => .error (.text "got an empty list of pods")
      | .ok pods => .ok pods := by
  simp only [listPodsFromSelector, LinkM.bind_fst, listPods]
  rcases l.pods ns selector with err | _ | ⟨p, ps⟩ <;> rfl

theorem usable_iff (pods : Except Error (List Pod)) :
    Usable pods ↔ match pods with
      | .error _ => False
      | .ok [] => False
      | .ok ps => ∀ p ∈ ps, p.podIP ≠ "" := by
  rcases pods with err | _ | ⟨p, ps⟩ <;> simp [Usable]

theorem resolveLink_spec (l : Listing) (serviceRecords : StringMap ServiceRecord)
    {quarksLinks : StringMap QuarksLink} {qName : String} {link : QuarksLink}
    (hq : quarksLinks.lookup qName = some link) :
    ((resolveLink P deployment serviceRecords quarksLinks qName l).1.toBool ↔
      ∀ r, serviceRecords.lookup qName = some r → Usable (l.pods deployment.ns r.selector)) ∧
    ∀ links, (resolveLink P deployment serviceRecords quarksLinks qName l).1 = .ok links →
      ∀ k, links.lookup k = if k = qName
        then some (resolvedLink deployment l serviceRecords qName link)
        else quarksLinks.lookup k := by
  unfold resolveLink resolvedLink
  rcases hr : serviceRecords.lookup qName with _ | r
  · refine ⟨by simp [Except.toBool], fun links h k => ?_⟩
    cases h
    split_ifs with hk
    · rw [hk, hq]
    · rfl
  · simp only [LinkM.bind_fst, listPodsFromSelector_fst, Option.some.injEq, forall_eq',
      usable_iff]
    rcases l.pods deployment.ns r.selector with err | _ | ⟨p, ps⟩
    · simp [Except.toBool]
    · simp [Except.toBool]
    · obtain ⟨hb, hl⟩ := jobInstances_spec qName 0 (p :: ps)
      dsimp only
      rcases h : jobInstances qName 0 (p :: ps) with err | insts
      · simp_all [Except.toBool]
      · refine ⟨by simp_all [Except.toBool], fun links he k => ?_⟩
        simp only [LinkM.pure_fst, Except.ok.injEq] at he
        subst he
        split_ifs with hk
        · subst hk
          simp [hq, hl insts h]
        · exact Finmap.lookup_insert_of_ne _ hk

theorem resolveLinks_cons_fst (l : Listing) (serviceRecords : StringMap ServiceRecord)
    (quarksLinks : StringMap QuarksLink) (qName : String) (qNames : List String) :
    (resolveLinks P deployment serviceRecords quarksLinks (qName :: qNames) l).1 =
      match (resolveLink P deployment serviceRecords quarksLinks qName l).1 with
      | .error err => .error err
      | .ok links => (resolveLinks P deployment serviceRecords links qNames l).1 := by
  simp only [resolveLinks, LinkM.bind_fst]
  rcases (resolveLink P deployment serviceRecords quarksLinks qName l).1 with err | links <;> rfl

theorem resolveLinks_spec (l : Listing) (serviceRecords : StringMap ServiceRecord) :
    ∀ (quarksLinks : StringMap QuarksLink) (qNames : List String), qNames.Nodup →
    (∀ q ∈ qNames, q ∈ quarksLinks) →
    ((resolveLinks P deployment serviceRecords quarksLinks qNames l).1.toBool ↔
      ∀ q ∈ qNames, ∀ r, serviceRecords.lookup q = some r →
        Usable (l.pods deployment.ns r.selector)) ∧
    ∀ links, (resolveLinks P deployment serviceRecords quarksLinks qNames l).1 = .ok links →
      ∀ k, links.lookup k = if k ∈ qNames
        then (quarksLinks.lookup k).map (resolvedLink deployment l serviceRecords k)
        else quarksLinks.lookup k
  | quarksLinks, [], _, _ => by
      refine ⟨by simp [resolveLinks, Except.toBool], fun links h k => ?_⟩
      cases h
      simp
  | quarksLinks, q :: qs, hnd, hmem => by
      obtain ⟨link, hq⟩ := Finmap.mem_iff.mp (hmem q (List.mem_cons_self _ _))
      obtain ⟨hb, hl⟩ := @resolveLink_spec P deployment l serviceRecords _ _ _ hq
      rw [List.nodup_cons] at hnd
      rw [resolveLinks_cons_fst]
      rcases h : (resolveLink P deployment serviceRecords quarksLinks q l).1 with err | links₁
      · rw [h] at hb
        refine ⟨⟨(fun he => by cases he), fun hall => ?_⟩, fun _ he => by cases he⟩
        simpa [Except.toBool] using hb.mpr (hall q (List.mem_cons_self _ _))
      · have hl₁ := hl links₁ h
        have hkeys : ∀ q' ∈ qs, q' ∈ links₁ := fun q' hq' => by
          rw [← Finmap.lookup_isSome, hl₁, if_neg (fun (he : q' = q) => hnd.1 (he ▸ hq'))]
          exact Finmap.lookup_isSome.mpr (hmem q' (List.mem_cons_of_mem _ hq'))
        obtain ⟨ihb, ihl⟩ := resolveLinks_spec l serviceRecords links₁ qs hnd.2 hkeys
        rw [h] at hb
        refine ⟨?_, fun links he k => ?_⟩
        · rw [ihb, List.forall_mem_cons]
          simp only [Except.toBool, true_iff] at hb
          exact ⟨fun h' => ⟨hb, h'⟩, fun h' => h'.2⟩
        · rw [ihl links he k, hl₁]
          by_cases hk : k = q
          · subst hk
            simp [hnd.1, hq]
          · by_cases hks : k ∈ qs <;> simp [hk, hks]

end CfOperator.Pods
