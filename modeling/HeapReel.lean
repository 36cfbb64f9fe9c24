import HeapReel.Animation
import HeapReel.Binary64
import HeapReel.Color
import HeapReel.CommandLine.Arguments
import HeapReel.CommandLine.Disk
import HeapReel.CommandLine.FileTree
import HeapReel.CommandLine.Run
import HeapReel.Decimal
import HeapReel.Event
import HeapReel.Extent
import HeapReel.Failure
import HeapReel.Font
import HeapReel.Frame
import HeapReel.Gif.Bits
import HeapReel.Gif.Film
import HeapReel.Gif.Lzw
import HeapReel.Gif.Lzw.Expansion
import HeapReel.Gif.Stream
import HeapReel.Gif.Writer
import HeapReel.Grid
import HeapReel.Grid.Root
import HeapReel.Indexed
import HeapReel.Lettering
import HeapReel.Log
import HeapReel.Main
import HeapReel.Notice
import HeapReel.Notice.Condition
import HeapReel.Notice.Filter
import HeapReel.Numeral
import HeapReel.Palette
import HeapReel.Pattern
import HeapReel.Pattern.Atom
import HeapReel.Pattern.Class
import HeapReel.Pattern.Mode
import HeapReel.Proofs.Admission
import HeapReel.Proofs.Animation
import HeapReel.Proofs.Canvas
import HeapReel.Proofs.Caption
import HeapReel.Proofs.Clamping
import HeapReel.Proofs.CommandLine.Arguments
import HeapReel.Proofs.CommandLine.FileTree
import HeapReel.Proofs.CommandLine.Run
import HeapReel.Proofs.Containment
import HeapReel.Proofs.Correction
import HeapReel.Proofs.Cropping
import HeapReel.Proofs.Decimal
import HeapReel.Proofs.Discipline
import HeapReel.Proofs.Extent
import HeapReel.Proofs.Fit
import HeapReel.Proofs.Frame
import HeapReel.Proofs.Gif.Acceptance
import HeapReel.Proofs.Gif.Bits
import HeapReel.Proofs.Gif.Film
import HeapReel.Proofs.Gif.Lzw
import HeapReel.Proofs.Gif.Stream
import HeapReel.Proofs.Gif.Writer
import HeapReel.Proofs.Grid
import HeapReel.Proofs.Indexed
import HeapReel.Proofs.Label
import HeapReel.Proofs.Layout
import HeapReel.Proofs.Lettering
import HeapReel.Proofs.Line
import HeapReel.Proofs.Log
import HeapReel.Proofs.Numeral
import HeapReel.Proofs.Progress
import HeapReel.Proofs.Raster
import HeapReel.Proofs.Rearrangement
import HeapReel.Proofs.Reel
import HeapReel.Proofs.Replay
import HeapReel.Proofs.Representation
import HeapReel.Proofs.Root
import HeapReel.Proofs.Rounding
import HeapReel.Proofs.Sink
import HeapReel.Proofs.Terminal
import HeapReel.Proofs.Translation
import HeapReel.Proofs.Usage
import HeapReel.Proofs.Viewing
import HeapReel.Proofs.Words
import HeapReel.Raster
import HeapReel.Reel
import HeapReel.Report
import HeapReel.Rounding
import HeapReel.Scheme
import HeapReel.Settings
import HeapReel.Sink
import HeapReel.Terminal
import HeapReel.Terminal.Plain
import HeapReel.Text.Blank
import HeapReel.Text.Letter
import HeapReel.Usage
