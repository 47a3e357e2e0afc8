import SkillMind.Runs.BudgetConvergence
import SkillMind.Runs.EffectReceipts
import SkillMind.Runs.UnknownOutcomes
import SkillMind.Runs.RunDispatch
import SkillMind.Reconciliation.Exclusive
import SkillMind.Schedules.ClaimFencing
import SkillMind.Auth.LoginThrottle
import SkillMind.Skills.PaidCalls
import SkillMind.Skills.SourceReload
import SkillMind.Agent.DesktopExclusivity
import SkillMind.Evaluations.History
import SkillMind.Schedules.SourceVerdicts
import SkillMind.Runs.InlineReplay
import SkillMind.Runs.InputReceipts
import SkillMind.Agent.ToolCallsOnce
import SkillMind.Schedules.CronExact
import SkillMind.Runs.ApprovedContent
import SkillMind.Schedules.Planning
import SkillMind.Runs.RunTurns
import SkillMind.Effects.RepositoryProposal
import SkillMind.Agent.SubagentDispatch
import SkillMind.Agent.ToolSequence
import SkillMind.Agent.ReadBackSchema
import SkillMind.Skills.CandidateRevision
import SkillMind.Runs.InteractionAnswers
import SkillMind.Storage.ObjectEffects
import SkillMind.Agent.Metering
import SkillMind.Modules.StaticAnalysis
import SkillMind.Agent.SchemaValidation
import SkillMind.Skills.ContractCompilation
import SkillMind.Agent.DocumentListing
import SkillMind.Agent.CellRanges
import SkillMind.Agent.NativeQuery
import SkillMind.Modules.BuildPlan
