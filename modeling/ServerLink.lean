import ServerLink.Files.Local
import ServerLink.Main
import ServerLink.Log.Pattern.Element
import ServerLink.Log.Pattern.Set
import ServerLink.Text.Letter
import ServerLink.Text.Part
import ServerLink.Proofs.Calls.Correlation
import ServerLink.Proofs.Calls.JobEnd
import ServerLink.Proofs.Calls.Displacement
import ServerLink.Proofs.Subscription.Registry
import ServerLink.Proofs.Link.Operations
import ServerLink.Proofs.Link.Moves
import ServerLink.Proofs.Link.Steps
import ServerLink.Proofs.Link.LostCalls
import ServerLink.Proofs.Link.Teardown
import ServerLink.Proofs.Subscription.History
import ServerLink.Proofs.Subscription.Product
import ServerLink.Proofs.Subscription.Endings
import ServerLink.Proofs.Frame
import ServerLink.Proofs.Files.Confinement
import ServerLink.Proofs.Link.Answers
import ServerLink.Proofs.Link.Caught
import ServerLink.Proofs.Link.Subscriptions
import ServerLink.Proofs.Transport.Lifecycle
import ServerLink.Proofs.RoundTrip
import ServerLink.Proofs.Link.JobNews
import ServerLink.Proofs.Link.Cancelling
import ServerLink.Proofs.Link.JobStream
import ServerLink.Proofs.Subscription.Losses
import ServerLink.Proofs.Subscription.Wakeups
import ServerLink.Proofs.Transport.Files
import ServerLink.Proofs.Transport.Version
import ServerLink.Proofs.Calls.JobNames
import ServerLink.Proofs.Files.Resolution
import ServerLink.Proofs.Link.Probing
import ServerLink.Proofs.Disk.Modes
import ServerLink.Proofs.Version
import ServerLink.Proofs.Settings.Waits
import ServerLink.Proofs.Settings.Text
import ServerLink.Proofs.CommandLine.Printing
import ServerLink.Proofs.Secret
import ServerLink.Proofs.Frame.Unknown
import ServerLink.Proofs.Job.Kept
