import GhostRunner.SchedulerPlacement
import GhostRunner.SchedulerAdmission
import GhostRunner.SchedulerCancelTurn
import GhostRunner.SchedulerOnce
import GhostRunner.SchedulerShutdown
import GhostRunner.ServerResync
import GhostRunner.ServerResume
import GhostRunner.OrchestratorQuiet
import GhostRunner.OrchestratorFinal
import GhostRunner.TurnsHistory
import GhostRunner.OrchestratorReply
import GhostRunner.OrchestratorIdle
import GhostRunner.SpeechAudio
import GhostRunner.SandboxReaped
import GhostRunner.ServeSession
import GhostRunner.ChunkerSegments
import GhostRunner.WavHeader
import GhostRunner.SynthStream
import GhostRunner.Prompt
import GhostRunner.SchedulerAging
import GhostRunner.SchedulerMinimal
import GhostRunner.WireGrammar
import GhostRunner.TurnManager
import GhostRunner.SandboxOutcome
import GhostRunner.SkillLibrary
import GhostRunner.OrchestratorTurns
import GhostRunner.Conversation
import GhostRunner.Recordings
import GhostRunner.WireMessages
import GhostRunner.TurnOwnership
import GhostRunner.ServerAddressed
import GhostRunner.ConfigAccepts
import GhostRunner.CoreStoreRefines
import GhostRunner.StartupServes
import GhostRunner.JpCalendarRuns
import GhostRunner.Handshake
import GhostRunner.SkillCalls
import GhostRunner.ChatJob
import GhostRunner.ChatSpeech
