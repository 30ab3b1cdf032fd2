import Dls2.Lib.Transition
import Dls2.Lib.Refinement
import Dls2.Lib.CondVar
import Dls2.Lib.Pending
import Dls2.StateMachine.Calls
import Dls2.StateMachine.WaitAsynchEvent
import Dls2.StateMachine.Machine
import Dls2.Application.AppStateMachine
import Dls2.Application.App
import Dls2.Application.Requests
import Dls2.Application.QuitRequest
import Dls2.Application.Pause
import Dls2.Application.PeriodicCommands
import Dls2.Application.Shutdown
import Dls2.Application.CheckAppData
import Dls2.Application.ShutdownSignal
import Dls2.Application.SchedulerUtils
import Dls2.ControlLayer.GatherThreads
import Dls2.Lib.Loop
import Dls2.ControlLayer.Arbitration
import Dls2.ControlLayer.Operations
import Dls2.ControlLayer.Residue
import Dls2.ControlLayer.Lengths
import Dls2.ControlLayer.CommandLevels
import Dls2.Lib.Assoc
import Dls2.Lib.Terminated
import Dls2.Lib.CircularBuffer
import Dls2.Lib.Separated
import Dls2.Lib.Search
import Dls2.Lib.Words
import Dls2.Commands.CommandBase
import Dls2.Commands.CommandManager
import Dls2.Commands.LevelWatcher
import Dls2.Commands.TriggerLevelWatcher
import Dls2.Commands.CallCommand
import Dls2.Commands.Discovery
import Dls2.Commands.NextLevel
import Dls2.Commands.ConcurrentCalls
import Dls2.Log.EventListener
import Dls2.Log.EventNotifier
import Dls2.Service.ParameterServer
import Dls2.Service.ServiceClient
import Dls2.Utils.NumericalMovingWindow
import Dls2.CoreFramework.Options
import Dls2.CoreFramework.ConsoleLayer
import Dls2.CoreFramework.ReadlineCompletion
import Dls2.CoreFramework.CommandNames
import Dls2.Lib.Multimap
import Dls2.Lib.EventLog
import Dls2.Lib.Throttle
import Dls2.Lib.PriorityQueue
import Dls2.Commands.CommandClasses
import Dls2.Commands.Disabling
import Dls2.Commands.Lookups
import Dls2.Application.History
import Dls2.Application.Failure
import Dls2.Utils.OwnedProcess
import Dls2.Utils.ShutdownProcesses
import Dls2.Log.Spamming
import Dls2.Supervisor.Orchestrator
import Dls2.Plugin.TopicMonitor
import Dls2.Plugin.TopicsSync
import Dls2.ControlLayer.CycleTime
import Dls2.Lib.Rounding
import Dls2.Utils.SystemResourceMonitor
import Dls2.Lib.Extraction
import Dls2.Utils.ProcessResourceMonitor
import Dls2.Lib.Rotation
import Dls2.Math.Quaternions
import Dls2.Math.RotMatToQuat
import Dls2.Math.EulerAngles
import Dls2.Math.TwoVectors
import Dls2.Math.RotationVectors
import Dls2.Math.Ramp
import Dls2.Lib.RotationRates
import Dls2.Math.AngularVelocity
import Dls2.Utils.Pose
import Dls2.Math.RotationConversions
import Dls2.Lib.PseudoInverse
import Dls2.Math.PseudoInverses
import Dls2.Math.QRDecomposition
import Dls2.Lib.Mutexes
import Dls2.Utils.PoseLocks
import Dls2.Lib.CriticalSections
import Dls2.Utils.PoseThreads
import Dls2.Service.UntimedCall
import Dls2.Service.ClientThreads
import Dls2.StateMachine.Watcher
import Dls2.Main.StartupSafety
import Dls2.ChildProcess.Launcher
import Dls2.CoreFramework.PluginLayers
import Dls2.CoreFramework.PluginProcesses
import Dls2.Main.StartupProcesses
