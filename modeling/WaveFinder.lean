import WaveFinder.Main
import WaveFinder.Settings.Json
import WaveFinder.Proofs.Query.Token
import WaveFinder.Proofs.Query.FirstSeen
import WaveFinder.Proofs.Query.Reading
import WaveFinder.Proofs.Zone.FixedDays
import WaveFinder.Proofs.Query.Grammar
import WaveFinder.Proofs.Query.RoundTrip
import WaveFinder.Proofs.Search.Comparison
import WaveFinder.Proofs.Search.Arrangement
import WaveFinder.Proofs.Query.Bounds
import WaveFinder.Proofs.Search.Dating
import WaveFinder.Proofs.Command.Build
import WaveFinder.Proofs.Query.Invariant
import WaveFinder.Proofs.Query.Orders
import WaveFinder.Proofs.Search.Results
import WaveFinder.Proofs.Query.Faults
import WaveFinder.Proofs.Query.Likeness
import WaveFinder.Proofs.Search.Visibility
import WaveFinder.Proofs.Search.Narrowing
import WaveFinder.Proofs.Search.TokenOrder
import WaveFinder.Proofs.Search.Authorship
import WaveFinder.Proofs.Search.LetterCase
import WaveFinder.Proofs.Query.ZoneRuns
import WaveFinder.Proofs.Calendar.Order
import WaveFinder.Proofs.Zone.DayText
import WaveFinder.Proofs.Search.Reach
import WaveFinder.Proofs.Search.Participants
import WaveFinder.Proofs.Settings.LocalDomain
import WaveFinder.Proofs.Zone.Names
import WaveFinder.Proofs.Search.FirstKeys
import WaveFinder.Proofs.Search.TieBlocks
import WaveFinder.Proofs.Wave.RoundTrip
import WaveFinder.Proofs.Settings.Layers
import WaveFinder.Proofs.Command.Search
import WaveFinder.Proofs.Zone.Resolution
