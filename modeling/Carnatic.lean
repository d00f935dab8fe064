import Carnatic.Files.Tree
import Carnatic.Main
import Carnatic.Performance.Session
import Carnatic.Proofs.Midi.Clock
import Carnatic.Proofs.Performance.Clock
import Carnatic.Proofs.Performance.Schedule
import Carnatic.Proofs.Curve.Weight
import Carnatic.Proofs.Midi.Receiver
import Carnatic.Proofs.Performance.Bend
import Carnatic.Proofs.Performance.Intonation
import Carnatic.Proofs.Midi.Reader
import Carnatic.Proofs.Midi.RoundTrip
import Carnatic.Proofs.Song.Grammar
import Carnatic.Proofs.Song.Layout
import Carnatic.Proofs.Midi.Voice
import Carnatic.Proofs.Performance.Steps
import Carnatic.Proofs.Performance.Voice
import Carnatic.Proofs.Midi.Delta
import Carnatic.Proofs.Performance.Chronicle
import Carnatic.Proofs.Text.Words
import Carnatic.Proofs.Reading.First
import Carnatic.Proofs.Token.Scan
import Carnatic.Proofs.Song.Place
import Carnatic.Proofs.Song.Breaks
import Carnatic.Proofs.Pitch.Offsets
import Carnatic.Proofs.Song.Music
import Carnatic.Proofs.Rendition.Acceptance
import Carnatic.Proofs.Performance.Transposition
import Carnatic.Proofs.Rendition.Duration
import Carnatic.Proofs.Rendition.Layout
import Carnatic.Proofs.Performance.Growth
import Carnatic.Proofs.Rendition.Continuation
import Carnatic.Proofs.Midi.Plain
import Carnatic.Proofs.Performance.Messages
import Carnatic.Proofs.Settings.Loading
import Carnatic.Proofs.Rendition.Lossless
import Carnatic.Proofs.Midi.Size
import Carnatic.Proofs.Rendition.TrackSize
import Carnatic.Proofs.Rendition.Pairing
import Carnatic.Proofs.Text.Places
import Carnatic.Proofs.Song.Tokens
import Carnatic.Proofs.Rendition.Pointing
import Carnatic.Proofs.Performance.Session
import Carnatic.Proofs.Segment.Building
import Carnatic.Proofs.Song.Earliest
import Carnatic.Proofs.Files.Tree
import Carnatic.Proofs.CommandLine.AllOrNothing
import Carnatic.Proofs.Song.Resumption
import Carnatic.Proofs.Song.Spelling
import Carnatic.Proofs.Rendition.Sustaining
import Carnatic.Proofs.Scalar.Float
import Carnatic.Proofs.Scalar.Order
import Carnatic.Proofs.Curve.Checkpoints
import Carnatic.Proofs.Curve.Points
import Carnatic.Proofs.Curve.Interpolation
import Carnatic.Proofs.Performance.Confinement
import Carnatic.Proofs.NameTable.Order
import Carnatic.Proofs.Registry.History
import Carnatic.Proofs.Rendition.Compass
import Carnatic.Proofs.Performance.Stillness
import Carnatic.Proofs.Song.Division
import Carnatic.Proofs.Text.Replacing
import Carnatic.Proofs.Rendition.Repetition
import Carnatic.Proofs.Midi.Canonical
import Carnatic.Proofs.CommandLine.Listing
import Carnatic.Proofs.Rendition.Naming
