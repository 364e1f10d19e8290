import OneShot.Transcript
import OneShot.Codec.Payload
import OneShot.Race.Contest
import OneShot.Proofs.Ledger
import OneShot.Proofs.Performing
import OneShot.Proofs.Deed
import OneShot.Proofs.Course
import OneShot.Proofs.Registry
import OneShot.Proofs.Sound
import OneShot.Proofs.Preservation
import OneShot.Proofs.Turns
import OneShot.Proofs.Termination
import OneShot.Proofs.Grammar
import OneShot.Proofs.Ending
import OneShot.Proofs.Cancellation
import OneShot.Proofs.Occurrences
import OneShot.Proofs.Ownership
import OneShot.Proofs.Release
import OneShot.Proofs.Race.Passages
import OneShot.Proofs.Race.Moves
import OneShot.Proofs.Race.Grounds
import OneShot.Proofs.Race.Verdict
import OneShot.Proofs.Race.Agreement
import OneShot.Proofs.Race.Account
import OneShot.Proofs.Race.Cues
import OneShot.Proofs.Race.Offers
import OneShot.Proofs.Race.Cell
import OneShot.Proofs.Race.View
import OneShot.Proofs.Race.Delivery
import OneShot.Proofs.Json.Reading
import OneShot.Proofs.Codec.RoundTrip
import OneShot.Proofs.Codec.Layout
import OneShot.Proofs.Loop
import OneShot.Proofs.Outlets.Channel
import OneShot.Proofs.Outlets.Gate
import OneShot.Proofs.Roster
import OneShot.Proofs.Outlets.Receiver
import OneShot.Proofs.Latch
import OneShot.Proofs.Batch
import OneShot.Proofs.Wrapping
import OneShot.Proofs.Apart
import OneShot.Proofs.Journal.Faithful
import OneShot.Proofs.Phases
