import AiBuddy.Queue.JobLease.Proofs.Twin
import AiBuddy.Conversation.Proofs.SttRequests
import AiBuddy.Queue.AtomicPublish.Proofs.Runs
import AiBuddy.Queue.LegacyMigration.Proofs.Coverage
import AiBuddy.Queue.LegacyMigration.Proofs.Export
import AiBuddy.Conversation.Proofs.ArtifactLedger
import AiBuddy.Conversation.Proofs.Status
import AiBuddy.Conversation.Proofs.WindowExtraction
import AiBuddy.Reminders.Proofs.Interference
import AiBuddy.ScheduleExtraction.Proofs.Claims
import AiBuddy.Goals.Proofs.Failures
import AiBuddy.EventPipeline.Proofs.Threads
import AiBuddy.EventPipeline.Proofs.Evidence
import AiBuddy.MeetingPipeline.Proofs.Published
import AiBuddy.Llm.Proofs.PlainText
import AiBuddy.Llm.Proofs.RoundTrip
import AiBuddy.MeetingPipeline.Proofs.Citations
import AiBuddy.Queue.Proofs.Retries
import AiBuddy.Mindmap.Proofs.Finished
import AiBuddy.MeetingExtension.Proofs.LateChunks
import AiBuddy.Transcription.Proofs.SttEvent
import AiBuddy.Transcription.Proofs.MeetingChunk
import AiBuddy.MeetingChat.Proofs.Durable
import AiBuddy.Conversation.Proofs.Publishing
import AiBuddy.Conversation.Proofs.ReadyRuns
import AiBuddy.DailyBriefing.Proofs.Retries
import AiBuddy.Queue.Proofs.MaintenanceFaults
import AiBuddy.Queue.Proofs.RetryRelay
import AiBuddy.Goals.Proofs.ReviewSchedule
import AiBuddy.Goals.Proofs.CoachReview
import AiBuddy.Goals.Proofs.EvidenceJobs
import AiBuddy.Storage.Proofs.ObjectKeys
import AiBuddy.Speech.Proofs.Jobs
import AiBuddy.Queue.JobLease.Proofs.JobIdentity
import AiBuddy.Queue.MongoFence.Proofs.Rejections
import AiBuddy.Conversation.Proofs.RelatedArtifacts
import AiBuddy.Conversation.Proofs.WindowOwnership
import AiBuddy.Conversation.Proofs.SemanticInput
import AiBuddy.Conversation.Proofs.WindowSplits
import AiBuddy.EventPipeline.Proofs.LedgerTruth
import AiBuddy.MeetingPipeline.Proofs.Partitions
import AiBuddy.Llm.Proofs.Quota
import AiBuddy.MeetingPipeline.Proofs.WindowOwners
import AiBuddy.ScheduleExtraction.Proofs.Validation
import AiBuddy.Goals.Proofs.StepActions
import AiBuddy.Reminders.Proofs.Recurrence
import AiBuddy.EventPipeline.Proofs.Microblocks
import AiBuddy.Conversation.Proofs.Readiness
import AiBuddy.MeetingExtension.Proofs.StandDown
import AiBuddy.DailyBriefing.Prepare
import AiBuddy.Mindmap.Proofs.Layout
import AiBuddy.Mindmap.Proofs.Edits
import AiBuddy.Goals.Scheduler
import AiBuddy.Llm.Proofs.Fallback
import AiBuddy.Chat.Spaces
import AiBuddy.Chat.Proofs.Actions
import AiBuddy.Conversation.Proofs.DrainGuards
import AiBuddy.Mindmap.Proofs.SourceScope
import AiBuddy.Queue.Consumer.Proofs.Accounted
