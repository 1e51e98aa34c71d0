import Cdenv.BuildArguments
import Cdenv.ComposeOverride
import Cdenv.GeneratedDockerfile
import Cdenv.LifecycleEnvironment
import Cdenv.CredentialRelease
import Cdenv.AgentRevocation
import Cdenv.DispatchWaits
import Cdenv.CredentialConsent
import Cdenv.RebuildTransaction
import Cdenv.ReconciliationCommit
import Cdenv.ComposeEvidence
import Cdenv.SupervisorRecovery
import Cdenv.SupervisorHandover
import Cdenv.LifecycleRecovery
import Cdenv.LifecycleInspection
import Cdenv.ServiceSetEvidence
import Cdenv.ImageOwnership
import Cdenv.CreationRecovery
import Cdenv.MountPlacement
import Cdenv.MergedMounts
import Cdenv.FeatureStability
import Cdenv.FeatureLock
import Cdenv.LocalIntegrity
import Cdenv.ControlMessage
import Cdenv.FeatureHosts
import Cdenv.RequirementSizes
import Cdenv.PortAttributes
import Cdenv.ProjectNames
import Cdenv.EnvironmentSnapshot
import Cdenv.InstallationOpening
import Cdenv.SubstitutionTokens
import Cdenv.FeatureCycle
import Cdenv.FeaturePinning
import Cdenv.DependencyClosure
import Cdenv.Credentials
import Cdenv.ListenerBinding
import Cdenv.OutputRedaction
import Cdenv.ReadinessWait
import Cdenv.RepositoryName
import Cdenv.RepositoryPath
import Cdenv.DirectTcpip
import Cdenv.ExecChannel
import Cdenv.UnixTime
import Cdenv.WorkspaceEnumeration
import Cdenv.DevcontainerId
