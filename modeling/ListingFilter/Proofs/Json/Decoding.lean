import ListingFilter.Json.Decoder
import ListingFilter.Proofs.Error
import ListingFilter.Proofs.Json.Value
import ListingFilter.Proofs.Table

namespace ListingFilter.Json

open Table

section

variable {α : Type} {decode : Decoder α}

end

end ListingFilter.Json
