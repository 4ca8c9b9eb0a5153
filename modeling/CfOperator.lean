import CfOperator.GoMap
import CfOperator.Types
import CfOperator.LinkInfos
import CfOperator.LinkInfos.Scan
import CfOperator.LinkInfos.Services
import CfOperator.LinkInfos.Pods
import CfOperator.LinkInfos.Spec
import CfOperator.LinkInfos.Results
import CfOperator.LinkInfos.Failures
import CfOperator.LinkInfos.Order
import CfOperator.Reconcile
import CfOperator.Reconcile.Steps
import CfOperator.Reconcile.Writes
import CfOperator.Reconcile.Owners
import CfOperator.LinkInfos.Congr
import CfOperator.Reconcile.Store
import CfOperator.Reconcile.Fixpoint
import CfOperator.Reconcile.Idempotence
import CfOperator.Reconcile.Effects
import CfOperator.Reconcile.Regenerate
import CfOperator.Reconcile.Meltdown
import CfOperator.Reconcile.Handshake
import CfOperator.Reconcile.Apply
import CfOperator.Reconcile.Reads
import CfOperator.Reconcile.Converge
import CfOperator.Reconcile.Determinism
import CfOperator.Reconcile.Reset
import CfOperator.Reconcile.Interleave
import CfOperator.Reconcile.Workers
import CfOperator.Reconcile.BestEffort
