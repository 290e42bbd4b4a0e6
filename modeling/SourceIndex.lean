import SourceIndex.Main
import SourceIndex.Proofs.Utf8RoundTrip
import SourceIndex.Proofs.EscapedNames
import SourceIndex.Proofs.PathsBelow
import SourceIndex.Proofs.PathAncestors
import SourceIndex.Proofs.StoreSoundness
import SourceIndex.Proofs.PathResolution
import SourceIndex.Proofs.DiscoveryWalk
import SourceIndex.Proofs.IndexedExtensions
import SourceIndex.Proofs.DiscoveryExactness
import SourceIndex.Proofs.Headings
import SourceIndex.Proofs.ListingOrder
import SourceIndex.Proofs.HeadingCollisions
import SourceIndex.Proofs.RootSpelling
import SourceIndex.Proofs.StoreGrowth
import SourceIndex.Proofs.OutputExclusion
import SourceIndex.Proofs.StoreExtension
import SourceIndex.Proofs.WriterContents
import SourceIndex.Proofs.DocumentLines
import SourceIndex.Proofs.QuotedStrings
import SourceIndex.Proofs.JsonLines
import SourceIndex.Proofs.SnippetLines
import SourceIndex.Proofs.IndexWriting
import SourceIndex.Proofs.OutputFrame
import SourceIndex.Proofs.OutputModes
import SourceIndex.Proofs.RefusedOutput
import SourceIndex.Proofs.SoundChanges
import SourceIndex.Proofs.WalkExtension
import SourceIndex.Proofs.Reruns
import SourceIndex.Proofs.MarkdownLayout
import SourceIndex.Proofs.MarkdownHeadings
import SourceIndex.Proofs.LineEnds
import SourceIndex.Proofs.ArgumentSpellings
import SourceIndex.Proofs.CommentMatches
import SourceIndex.Proofs.CommentPattern
import SourceIndex.Proofs.LineScan
import SourceIndex.Proofs.DecodedLines
import SourceIndex.Proofs.SnippetShape
import SourceIndex.Proofs.LimitedRoom
import SourceIndex.Proofs.BufferedRoom
import SourceIndex.Proofs.FullDevice
import SourceIndex.Proofs.LineConventions
import SourceIndex.Proofs.SnippetStability
import SourceIndex.Proofs.StrayBytes
import SourceIndex.Proofs.RelativeNames
import SourceIndex.Proofs.Fallible
import SourceIndex.Proofs.ExclusiveArguments
import SourceIndex.Proofs.FileOrder
import SourceIndex.Proofs.CodePointOrder
import SourceIndex.Proofs.StringSpellings
import SourceIndex.Proofs.SkippedValues
import SourceIndex.Proofs.RecordMembers
