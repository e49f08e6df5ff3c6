import Havn.Db.FtsQuery
import Havn.Db.MemoryAging
import Havn.Db.MemoryAudit
import Havn.Db.RecentEvents
import Havn.Gateway.AdapterStream
import Havn.Gateway.AdminRpc
import Havn.Gateway.AgentQuota
import Havn.Gateway.Backpressure
import Havn.Gateway.Bootstrap
import Havn.Gateway.ConfigUpdates
import Havn.Gateway.Connections
import Havn.Gateway.CredentialChain
import Havn.Gateway.CronDue
import Havn.Gateway.CronResults
import Havn.Gateway.GeminiSchema
import Havn.Gateway.GeminiTalk
import Havn.Gateway.KeyMigration
import Havn.Gateway.LifecycleRaces
import Havn.Gateway.Messaging
import Havn.Gateway.OpenAiTools
import Havn.Gateway.PolicyGate
import Havn.Gateway.QuerySlots
import Havn.Gateway.SelectSpawner
import Havn.Gateway.TeamUsage
import Havn.Gateway.WakeCheck
import Havn.Proto.Codec
import Havn.Runtime.Backfill
import Havn.Runtime.CallLlm
import Havn.Runtime.CronRun
import Havn.Runtime.CuratorFiles
import Havn.Runtime.CuratorPins
import Havn.Runtime.InboundTasks
import Havn.Runtime.McpNames
import Havn.Runtime.Hybrid
import Havn.Runtime.Mmr
import Havn.Runtime.Seccomp
import Havn.Runtime.SharedMirror
import Havn.Runtime.SkillLibrary
import Havn.Runtime.SkillVectors
import Havn.Runtime.TokenVector
import Havn.Spawner.AgentNetwork
