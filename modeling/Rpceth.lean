import Rpceth.Theorems.ResetWindow
import Rpceth.Theorems.ProbeAccounting
import Rpceth.Theorems.Backoff
import Rpceth.Theorems.ChainSettings
import Rpceth.Theorems.DeadProvider
import Rpceth.Theorems.Dominance
import Rpceth.Theorems.Recovery
import Rpceth.Theorems.Strategies
import Rpceth.Theorems.AttemptTimeout
import Rpceth.Theorems.TaskRefinement
import Rpceth.Theorems.RetryBudget
import Rpceth.Theorems.ServerAuthorization
import Rpceth.Theorems.ServerConfluence
import Rpceth.Theorems.ServerHealth
import Rpceth.Theorems.ServerIsolation
import Rpceth.Theorems.ServerLockOut
import Rpceth.Theorems.ServerTurns
import Rpceth.Theorems.Startup
import Rpceth.Theorems.TaskResponses
import Rpceth.Theorems.TaskWork
