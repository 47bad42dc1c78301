import Docsmith.Logging
import Docsmith.Main
import Docsmith.Proofs.Overwriting
import Docsmith.Proofs.Failure
import Docsmith.Proofs.Reconfiguration
import Docsmith.Proofs.Leftover
import Docsmith.Proofs.Recording
import Docsmith.Proofs.Defaults
import Docsmith.Proofs.Display
import Docsmith.Proofs.GoReading
import Docsmith.Proofs.Publishing
import Docsmith.Proofs.Relocation
import Docsmith.Proofs.Changes
import Docsmith.Proofs.Breakage
import Docsmith.Proofs.Attachment
import Docsmith.Proofs.LongFile
import Docsmith.Proofs.Navigation
import Docsmith.Proofs.Blocks
import Docsmith.Proofs.Marking
import Docsmith.Proofs.Annotated
import Docsmith.Proofs.Signature
import Docsmith.Proofs.Generics
import Docsmith.Proofs.Summary
import Docsmith.Proofs.Uploading
import Docsmith.Proofs.Starting
import Docsmith.Proofs.Contents
import Docsmith.Proofs.Grouping
