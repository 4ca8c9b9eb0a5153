import CfOperator.Types

namespace CfOperator

structure SecretList where
  items : List Secret
  nodup_names : (items.map Secret.name).Nodup

/-- What the API server answers to the `List` calls of `listLinkInfos`, at one moment. -/
structure Listing where
  secrets : String → Except Error SecretList
  services : String → Except Error (List Service)
  pods : String → StringMap String → Except Error (List Pod)

inductive ListCall where
  | secrets (ns : String)
  | services (ns : String)
  | pods (ns : String) (selector : StringMap String)
  deriving DecidableEq

/-- A computation of the link resolver: it reads one listing and reports the `List` calls
it sent. -/
def LinkM (α : Type) := Listing → α × List ListCall

instance instMonadLinkM : Monad LinkM where
  pure a := fun _ => (a, [])
  bind x f := fun l => ((f (x l).1 l).1, (x l).2 ++ (f (x l).1 l).2)

namespace LinkM

@[simp] theorem pure_fst {α : Type} (a : α) (l : Listing) : ((pure a : LinkM α) l).1 = a := rfl

@[simp] theorem pure_snd {α : Type} (a : α) (l : Listing) : ((pure a : LinkM α) l).2 = [] := rfl

@[simp] theorem bind_fst {α β : Type} (x : LinkM α) (f : α → LinkM β) (l : Listing) :
    ((x >>= f) l).1 = (f (x l).1 l).1 := rfl

@[simp] theorem bind_snd {α β : Type} (x : LinkM α) (f : α → LinkM β) (l : Listing) :
    ((x >>= f) l).2 = (x l).2 ++ (f (x l).1 l).2 := rfl

end LinkM

def listSecrets (ns : String) : LinkM (Except Error SecretList) :=
  fun l => (l.secrets ns, [.secrets ns])

def listServices (ns : String) : LinkM (Except Error (List Service)) :=
  fun l => (l.services ns, [.services ns])

def listPods (ns : String) (selector : StringMap String) : LinkM (Except Error (List Pod)) :=
  fun l => (l.pods ns selector, [.pods ns selector])

structure RangeOrders where
  quarksLinks : RangeOrder
  missingProviders : RangeOrder

/-- What the loop over the listed secrets carries: the link infos so far, which missing
providers were found, and the resolved links keyed by secret name. -/
structure SecretScan where
  linkInfos : LinkInfos
  missingProviders : StringMap Bool
  quarksLinks : StringMap QuarksLink

def SecretScan.record (st : SecretScan) (s : Secret) (linkProvider : LinkProvider) : SecretScan where
  linkInfos := st.linkInfos ++ [⟨s.name, linkProvider.name, linkProvider.providerType⟩]
  quarksLinks := if linkProvider.providerType ≠ "" then
      st.quarksLinks.insert s.name ⟨linkProvider.providerType, "", []⟩
    else st.quarksLinks
  missingProviders := st.missingProviders.insert linkProvider.name true

section

variable (P : Packages) (deployment : BOSHDeployment)

def scanSecret (st : SecretScan) (s : Secret) : Except Error SecretScan :=
  if s.annotations.lookup P.labelDeploymentName = some deployment.name then
    match P.newLinkProvider s.annotations with
    | .error err => .error (.wrap ("failed to parse link JSON for  '" ++ deployment.name ++ "'") err)
    | .ok linkProvider =>
      match st.missingProviders.lookup linkProvider.name with
      | some dup =>
        if dup then .error (.text ("duplicated secrets of provider: " ++ linkProvider.name))
        else .ok (st.record s linkProvider)
      | none => .ok st
  else .ok st

def scanSecrets : SecretScan → List Secret → SecretScan × Option Error
  | st, [] => (st, none)
  | st, s :: secrets =>
    match scanSecret P deployment st s with
    | .ok st' => scanSecrets st' secrets
    | .error err => (st, some err)

def getServiceRecords (ns name : String) (svcs : List Service) :
    Except Error (StringMap ServiceRecord) :=
  go ∅ svcs
where
  go (svcRecords : StringMap ServiceRecord) : List Service → Except Error (StringMap ServiceRecord)
    | [] => .ok svcRecords
    | svc :: svcs =>
      if svc.annotations.lookup P.labelDeploymentName = some name then
        match svc.annotations.lookup P.annotationLinkProviderService with
        | some providerName =>
          if providerName ∈ svcRecords then
            .error (.text ("duplicated services of provider: " ++ providerName))
          else
            go (svcRecords.insert providerName
              ⟨svc.selector, svc.name ++ "." ++ ns ++ ".svc." ++ P.clusterDomain⟩) svcs
        | none => go svcRecords svcs
      else go svcRecords svcs

def listPodsFromSelector (ns : String) (selector : StringMap String) :
    LinkM (Except Error (List Pod)) := do
  match ← listPods ns selector with
  | .error err =>
    return .error (.wrap ("listing pods from selector '" ++ P.formatSelector selector ++ "':") err)
  | .ok [] => return .error (.text "got an empty list of pods")
  | .ok pods => return .ok pods

def jobInstances (qName : String) : Nat → List Pod → Except Error (List JobInstance)
  | _, [] => .ok []
  | i, p :: pods =>
    if p.podIP = "" then
      .error (.text ("empty ip of kube native component: '" ++ p.ns ++ "/" ++ p.name ++ "'"))
    else (⟨qName, p.uid, i, p.podIP, i == 0⟩ :: ·) <$> jobInstances qName (i + 1) pods

def resolveLink (serviceRecords : StringMap ServiceRecord) (quarksLinks : StringMap QuarksLink)
    (qName : String) : LinkM (Except Error (StringMap QuarksLink)) := do
  match serviceRecords.lookup qName with
  | none => return .ok quarksLinks
  | some svcRecord =>
    match ← listPodsFromSelector P deployment.ns svcRecord.selector with
    | .error err => return .error (.wrap ("Failed to get link pods for '" ++ deployment.name ++ "'") err)
    | .ok pods =>
      match jobInstances qName 0 pods with
      | .error err => return .error err
      | .ok jobsInstances =>
        return .ok (quarksLinks.insert qName
          ⟨((quarksLinks.lookup qName).map QuarksLink.type).getD "", svcRecord.dnsRecord,
            jobsInstances⟩)

def resolveLinks (serviceRecords : StringMap ServiceRecord) :
    StringMap QuarksLink → List String → LinkM (Except Error (StringMap QuarksLink))
  | quarksLinks, [] => return .ok quarksLinks
  | quarksLinks, qName :: qNames => do
    match ← resolveLink P deployment serviceRecords quarksLinks qName with
    | .error err => return .error err
    | .ok quarksLinks => resolveLinks serviceRecords quarksLinks qNames

/-- What `listLinkInfos` hands back: its two results, and the manifest it was given as the
call left it. -/
structure LinkResult where
  linkInfos : LinkInfos
  manifest : Manifest
  err : Option Error

/-- The last step of `listLinkInfos`: store the resolved links, if any, under `quarks_links`,
making the property map first when it is nil. -/
def storeQuarksLinks (quarksLinks : StringMap QuarksLink) (manifest : Manifest) : Manifest :=
  if quarksLinks ≠ ∅ then
    { manifest with properties := some ((manifest.properties.getD ∅).insert
        "quarks_links" (.quarksLinks quarksLinks)) }
  else manifest

def Manifest.property (manifest : Manifest) (key : String) : Option PropertyValue :=
  (manifest.properties.getD ∅).lookup key

/-- The end of `listLinkInfos`: fail on the providers no secret was found for, or else store
the resolved links. -/
def reportMissingProviders (order : RangeOrder) (missingProviders : StringMap Bool)
    (quarksLinks : StringMap QuarksLink) (linkInfos : LinkInfos) (manifest : Manifest) :
    LinkResult :=
  let missingPs := (order.keys missingProviders.keys).filter
    (fun key => !(missingProviders.lookup key).getD false)
  if missingPs ≠ [] then
    ⟨linkInfos, manifest,
      some (.text ("missing link secrets for providers: " ++ ", ".intercalate missingPs))⟩
  else ⟨linkInfos, storeQuarksLinks quarksLinks manifest, none⟩

def listLinkInfos (orders : RangeOrders) (manifest : Manifest) : LinkM LinkResult :=
  let missingProviders := P.listMissingProviders manifest
  if missingProviders = ∅ then
    return reportMissingProviders orders.missingProviders missingProviders ∅ [] manifest
  else do
    match ← listSecrets deployment.ns with
    | .error err => return ⟨[], manifest, some (.wrap
        ("listing secrets for link in deployment '" ++ deployment.name ++ "':") err)⟩
    | .ok secrets =>
    match ← listServices deployment.ns with
    | .error err => return ⟨[], manifest, some (.wrap
        ("listing services for link in deployment '" ++ deployment.name ++ "':") err)⟩
    | .ok services =>
    match scanSecrets P deployment ⟨[], missingProviders, ∅⟩ secrets.items with
    | (scan, some err) => return ⟨scan.linkInfos, manifest, some err⟩
    | (scan, none) =>
    match getServiceRecords P deployment.ns deployment.name services with
    | .error err => return ⟨scan.linkInfos, manifest, some (.wrap
        ("failed to get link services for '" ++ deployment.name ++ "'") err)⟩
    | .ok serviceRecords =>
    match ← resolveLinks P deployment serviceRecords scan.quarksLinks
        (orders.quarksLinks.keys scan.quarksLinks.keys) with
    | .error err => return ⟨scan.linkInfos, manifest, some err⟩
    | .ok quarksLinks =>
      return reportMissingProviders orders.missingProviders scan.missingProviders quarksLinks
        scan.linkInfos manifest

end

end CfOperator
