import Manifest.Main
import Manifest.Parse.Construct
import Manifest.Parse.Move
import Manifest.Text.Reader
import Manifest.Tree.Forest
import Manifest.Proofs.Reading.Place
import Manifest.Proofs.Lexing.PushBack
import Manifest.Proofs.Lexing.Literals
import Manifest.Proofs.Lexing.Agreement
import Manifest.Proofs.Lexing.Tiling
import Manifest.Proofs.Lexing.Reports
import Manifest.Proofs.Lexing.Restart
import Manifest.Proofs.Lexing.Significant
import Manifest.Proofs.Tree.Interpolated
import Manifest.Proofs.Parsing.Motion
import Manifest.Proofs.Parsing.Stretches
import Manifest.Proofs.Parsing.Requirements
import Manifest.Proofs.Parsing.Resources
import Manifest.Proofs.Parsing.Declarations
import Manifest.Proofs.Parsing.Branches
import Manifest.Proofs.Parsing.Scans
import Manifest.Proofs.Parsing.TopLevel
import Manifest.Proofs.Checked.Checks
import Manifest.Proofs.Checked.Requirements
import Manifest.Proofs.Checked.Resources
import Manifest.Proofs.Checked.Declarations
import Manifest.Proofs.Checked.Branches
import Manifest.Proofs.Checked.Scans
import Manifest.Proofs.Checked.TopLevel
import Manifest.Proofs.Lexing.JoinedWords
import Manifest.Proofs.Lexing.Respelling
import Manifest.Proofs.Tree.Links
import Manifest.Proofs.Tree.Remapped
import Manifest.Proofs.Tree.Insertion
import Manifest.Proofs.Tree.Moves
import Manifest.Proofs.Tree.Ownership
import Manifest.Proofs.Parallel.Basic
import Manifest.Proofs.Parallel.Twins
import Manifest.Proofs.Parallel.Requirements
import Manifest.Proofs.Parallel.Resources
import Manifest.Proofs.Parallel.Declarations
import Manifest.Proofs.Parallel.Branches
import Manifest.Proofs.Parallel.Scans
import Manifest.Proofs.Parallel.TopLevel
import Manifest.Proofs.Parallel.Alone
import Manifest.Proofs.Whole.Linked
import Manifest.Proofs.Whole.Interrupted
import Manifest.Proofs.Whole.Blanks
import Manifest.Proofs.Whole.Joined
import Manifest.Proofs.Reports.Timely
import Manifest.Proofs.Reports.Requirements
import Manifest.Proofs.Reports.Resources
import Manifest.Proofs.Reports.Declarations
import Manifest.Proofs.Reports.Branches
import Manifest.Proofs.Reports.Scans
import Manifest.Proofs.Reports.TopLevel
import Manifest.Proofs.Whole.Stopped
import Manifest.Proofs.Whole.Reported
import Manifest.Proofs.Whole.Dropped
import Manifest.Proofs.Whole.Unwarned
import Manifest.Proofs.Lexing.Multiline
import Manifest.Proofs.Lexing.Delimiters
import Manifest.Proofs.Bodies.Resources
import Manifest.Proofs.Bodies.Declarations
import Manifest.Proofs.Bodies.Scans
import Manifest.Proofs.Whole.Bodiless
import Manifest.Proofs.Scanning.Extent
import Manifest.Proofs.Scanning.Brackets
import Manifest.Proofs.Scanning.Runs
import Manifest.Proofs.Scanning.Plain
import Manifest.Proofs.Scanning.Steps
import Manifest.Proofs.Scanning.Depth
import Manifest.Proofs.Scanning.Mentions
import Manifest.Proofs.Scanning.Gathered
import Manifest.Proofs.Forms.Facing
import Manifest.Proofs.Forms.Resources
import Manifest.Proofs.Forms.Conditions
import Manifest.Proofs.Forms.Cases
import Manifest.Proofs.Forms.Parameters
import Manifest.Proofs.Forms.Indices
import Manifest.Proofs.Forms.Requirements
import Manifest.Proofs.Forms.Misfits
import Manifest.Proofs.Lexing.Names
import Manifest.Proofs.Lexing.Grammar
import Manifest.Proofs.Regions.Enclosed
import Manifest.Proofs.Lexing.Munches
import Manifest.Proofs.Lexing.Flags
import Manifest.Proofs.Reading.History
import Manifest.Proofs.Whole.Located
import Manifest.Proofs.Lexing.Tries
import Manifest.Proofs.Whole.Outlined
import Manifest.Proofs.Tree.Literals
import Manifest.Proofs.Lexing.Variables
import Manifest.Proofs.Parsing.Unreading
