import SdkWiring.Text.Pattern
import SdkWiring.Text.LineBreak
import SdkWiring.Text.Splice
import SdkWiring.Scan.Rule
import SdkWiring.Sdk.Integration
import SdkWiring.Files.View
import SdkWiring.Problem
import SdkWiring.Journal
import SdkWiring.Delegate.Wiring
import SdkWiring.Podfile.Pods
import SdkWiring.Settings.Load
import SdkWiring.Operation
import SdkWiring.Project.Locate
import SdkWiring.Plan.Steps
import SdkWiring.Diff.Slide
import SdkWiring.CommandLine.Listing
import SdkWiring.CommandLine.Run
import SdkWiring.Main
import SdkWiring.Proofs.Delegate.CallEnd
import SdkWiring.Proofs.Delegate.MessageEnd
import SdkWiring.Proofs.Delegate.Repetition
import SdkWiring.Proofs.Delegate.SwiftScope
import SdkWiring.Proofs.Scan.Grammar
import SdkWiring.Proofs.Delegate.ObjectiveCScope
import SdkWiring.Proofs.Delegate.SameSkeleton
import SdkWiring.Proofs.Delegate.CallSpans
import SdkWiring.Proofs.Delegate.Insertion
import SdkWiring.Proofs.Delegate.ImportSites
import SdkWiring.Proofs.Delegate.LiveImports
import SdkWiring.Proofs.Plan.History
import SdkWiring.Proofs.Podfile.LiveLine
import SdkWiring.Proofs.Podfile.Block
import SdkWiring.Proofs.Podfile.Placement
import SdkWiring.Proofs.Podfile.Fixpoint
import SdkWiring.Proofs.Podfile.LiveTarget
import SdkWiring.Proofs.Files.Install
import SdkWiring.Proofs.Project.Search
import SdkWiring.Proofs.Project.Locate
import SdkWiring.Proofs.Plan.Again
import SdkWiring.Proofs.Project.Breadth
import SdkWiring.Proofs.Project.Skipped
import SdkWiring.Proofs.Project.Ends
import SdkWiring.Proofs.Plan.Apply
import SdkWiring.Proofs.CommandLine.DryRun
import SdkWiring.Proofs.Text.OneByOne
import SdkWiring.Proofs.Delegate.ImportsOnce
import SdkWiring.Proofs.Delegate.Anchors
import SdkWiring.Proofs.Podfile.Removal
import SdkWiring.Proofs.Podfile.TakenBack
import SdkWiring.Proofs.Delegate.QuotedSecret
import SdkWiring.Proofs.Delegate.ParameterList
import SdkWiring.Proofs.Scan.PreviousLine
import SdkWiring.Proofs.Delegate.HeaderRuns
import SdkWiring.Proofs.Plan.LineBreaks
