import CfOperator.GoMap

namespace CfOperator

instance decEqExcept {ε α : Type} [DecidableEq ε] [DecidableEq α] : DecidableEq (Except ε α)
  | .ok a, .ok b => decidable_of_iff (a = b) ⟨congrArg _, Except.ok.inj⟩
  | .error a, .error b => decidable_of_iff (a = b) ⟨congrArg _, Except.error.inj⟩
  | .ok _, .error _ => isFalse Except.noConfusion
  | .error _, .ok _ => isFalse Except.noConfusion

abbrev Time := Nat

abbrev Duration := Nat

def second : Duration := 1000000000

/-- `metav1.Time` as the API server keeps it: written out in RFC 3339, in whole seconds. -/
def wholeSeconds (t : Time) : Time := t - t % second

theorem wholeSeconds_le (t : Time) : wholeSeconds t ≤ t := Nat.sub_le _ _

inductive StatusReason where
  | notFound
  | other
  deriving DecidableEq

/-- A Go `error`: one the API server returns with its status reason, a plain message
(`errors.New`, `fmt.Errorf`, a logged `Errorf`), or a message wrapped around its cause
(`errors.Wrapf`). -/
inductive Error where
  | status (reason : StatusReason) (message : String)
  | text (message : String)
  | wrap (message : String) (cause : Error)
  deriving DecidableEq

def Error.message : Error → String
  | .status _ m | .text m => m
  | .wrap m cause => m ++ ": " ++ cause.message

def Error.isNotFound : Error → Bool
  | .status .notFound _ => true
  | _ => false

structure NamespacedName where
  ns : String
  name : String
  deriving DecidableEq

def NamespacedName.format (key : NamespacedName) : String := key.ns ++ "/" ++ key.name

structure Secret where
  name : String
  ns : String
  labels : StringMap String
  annotations : StringMap String
  stringData : StringMap String
  deriving DecidableEq

structure Service where
  name : String
  annotations : StringMap String
  selector : StringMap String
  deriving DecidableEq

structure Pod where
  name : String
  ns : String
  uid : String
  podIP : String
  deriving DecidableEq

structure BOSHDeployment where
  name : String
  ns : String
  generation : Nat
  lastReconcile : Option Time
  deriving DecidableEq

structure LinkProvider where
  name : String
  providerType : String
  deriving DecidableEq

structure LinkInfo where
  secretName : String
  providerName : String
  providerType : String
  deriving DecidableEq

abbrev LinkInfos := List LinkInfo

structure JobInstance where
  name : String
  id : String
  index : Nat
  address : String
  bootstrap : Bool
  deriving DecidableEq

structure QuarksLink where
  type : String
  address : String
  instances : List JobInstance
  deriving DecidableEq

structure ServiceRecord where
  selector : StringMap String
  dnsRecord : String
  deriving DecidableEq

inductive PropertyValue where
  | quarksLinks (links : StringMap QuarksLink)
  | yaml (text : String)
  deriving DecidableEq

structure Variable where
  name : String
  type : String
  deriving DecidableEq

/-- A BOSH manifest with the fields this controller reads or writes: its `Properties`
(`none` is a nil map) and its `Variables`. -/
structure Manifest where
  properties : Option (StringMap PropertyValue)
  vars : List Variable
  deriving DecidableEq

structure QuarksSecret where
  name : String
  spec : String
  generated : Bool
  deriving DecidableEq

structure QuarksJob where
  name : String
  spec : String
  deriving DecidableEq

inductive Object where
  | secret (s : Secret)
  | quarksSecret (q : QuarksSecret)
  | quarksJob (j : QuarksJob)
  | deployment (d : BOSHDeployment)
  deriving DecidableEq

inductive OperationResult where
  | none
  | created
  | updated
  deriving DecidableEq

/-- What the controller takes from the operator's other packages: the annotation and label
keys, the name of the manifest secret, the cluster domain, the manifest's own methods, the
parser of link annotations and the meltdown window, none of which are part of this
controller. -/
structure Packages where
  labelDeploymentName : String
  labelDeploymentSecretType : String
  annotationLinkProviderService : String
  deploymentSecretTypeManifestWithOps : String
  deploymentSecretName : String → String → String → String
  clusterDomain : String
  listMissingProviders : Manifest → StringMap Bool
  newLinkProvider : StringMap String → Except Error LinkProvider
  marshal : Manifest → Except Error String
  formatSelector : StringMap String → String
  /-- `meltdown.NewWindow(duration, lastReconcile).Contains(now)`. -/
  meltdownContains : Duration → Option Time → Time → Bool

end CfOperator
