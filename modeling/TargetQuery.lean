import TargetQuery.Main
import TargetQuery.Rehearsal.Basic
import TargetQuery.Rehearsal.Playback
import TargetQuery.Rehearsal.Samples
import TargetQuery.Proofs.TargetInfo.Framing
import TargetQuery.Proofs.TargetInfo.UnknownMembers
import TargetQuery.Proofs.TargetInfo.ErrorPlace
import TargetQuery.Proofs.Execution.Leftovers
import TargetQuery.Proofs.Settings.RoundTrip
import TargetQuery.Proofs.Settings.Precedence
import TargetQuery.Proofs.Job.Steps
import TargetQuery.Proofs.Job.TagOrder
import TargetQuery.Proofs.Ask.Calls
import TargetQuery.Proofs.Ask.Causes
import TargetQuery.Proofs.CommandLine.Override
import TargetQuery.Proofs.CommandLine.Agreement
import TargetQuery.Proofs.Lookup.Order
import TargetQuery.Proofs.Lookup.Presence
import TargetQuery.Proofs.Query.ReadBack
import TargetQuery.Proofs.Rehearsal.Bookkeeping
import TargetQuery.Proofs.Rehearsal.Agreement
